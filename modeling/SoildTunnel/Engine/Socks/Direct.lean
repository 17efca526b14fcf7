import SoildTunnel.Engine.Net
import SoildTunnel.Lib.Lts

-- Connections past the tunnel: two sockets and a copy in each direction.
namespace Engine.Socks

def RELAY_BUFFER_BYTES : Nat := 64 <<< 10

inductive CopyPipe
  | reading
  | writing (chunk : Bytes)
  | ended
  | aborted
deriving DecidableEq

-- One direction: what its sender has sent and whether it has closed that direction, what of it has
-- not been read yet, the copy, and what it has written to the other socket.
structure Pipe where
  sent : Bytes := []
  closed : Bool := false
  arrived : Bytes := []
  copy : CopyPipe := .reading
  written : Bytes := []
deriving DecidableEq

inductive PipeLabel
  | sends (bytes : Bytes)
  | closes
  | reads (n : Nat)
  | readsEnd
  | writes (n : Nat)
  | fails
deriving DecidableEq

namespace Pipe

-- `write_all` may take several writes for a chunk.
def step (p : Pipe) : PipeLabel → Option Pipe
  | .sends bytes =>
    if p.closed then none else some { p with sent := p.sent ++ bytes, arrived := p.arrived ++ bytes }
  | .closes => some { p with closed := true }
  | .reads n =>
    if p.copy = .reading ∧ 0 < n ∧ n ≤ p.arrived.length ∧ n ≤ RELAY_BUFFER_BYTES then
      some { p with arrived := p.arrived.drop n, copy := .writing (p.arrived.take n) }
    else none
  | .readsEnd =>
    if p.copy = .reading ∧ p.arrived = [] ∧ p.closed then some { p with copy := .ended } else none
  | .writes n =>
    match p.copy with
    | .writing chunk =>
      if 0 < n ∧ n ≤ chunk.length then
        let rest := chunk.drop n
        some { p with copy := if rest = [] then .reading else .writing rest, written := p.written ++ chunk.take n }
      else none
    | _ => none
  | .fails =>
    match p.copy with
    | .reading | .writing _ => some { p with copy := .ended }
    | _ => none

-- The end of a task that has ended already changes nothing.
def abort (p : Pipe) : Pipe :=
  { p with copy := if p.copy = .ended then .ended else .aborted }

end Pipe

-- `up` goes from the client to the remote side.
inductive Direction
  | up
  | down
deriving DecidableEq

structure DirectRelay where
  up : Pipe := {}
  down : Pipe := {}
  clientFailed : Bool := false
deriving DecidableEq

inductive DirectLabel
  | up (label : PipeLabel)
  | down (label : PipeLabel)
  | clientFails
  | abort
deriving DecidableEq

namespace DirectRelay

-- One copy is awaited, the other is a task that is aborted after it. The remote side may refuse what is
-- written to it at any time, while reads from the client and writes to it fail when the client has
-- failed. A remote side that resets the connection has closed it.
def step (awaits : Direction) (s : DirectRelay) : DirectLabel → Option DirectRelay
  | .up label =>
    if label = .fails ∧ s.up.copy = .reading ∧ s.clientFailed = false then none
    else (s.up.step label).map fun up => { s with up }
  | .down label =>
    if label = .fails ∧ s.clientFailed = false then none
    else (s.down.step label).map fun down => { s with down }
  | .clientFails => some { s with clientFailed := true }
  | .abort =>
    match awaits with
    | .up => if s.up.copy = .ended then some { s with down := s.down.abort } else none
    | .down => if s.down.copy = .ended then some { s with up := s.up.abort } else none

def relayHttpDirect : DirectRelay → DirectLabel → Option DirectRelay :=
  step .up

def handleDirect : DirectRelay → DirectLabel → Option DirectRelay :=
  step .down

end DirectRelay

end Engine.Socks
