import SoildTunnel.Engine.Net
import SoildTunnel.Lib.Lts

-- The receive task of a WireGuard tunnel. It shares the state of the protocol with the other tasks, which
-- take the same lock.
namespace Engine.WireGuard

abbrev ClientId := UInt8 × UInt8 × UInt8

def wgMsgTypeMin : UInt8 := 1

def wgMsgTypeMax : UInt8 := 4

def maxTransientRecvErrors : Nat := 64

inductive ErrorKind
  | connectionRefused
  | connectionReset
  | connectionAborted
  | hostUnreachable
  | networkUnreachable
  | interrupted
  | wouldBlock
  | timedOut
  | other
deriving DecidableEq

def isTransientSocketError (kind : ErrorKind) : Bool :=
  kind ≠ .other

-- The three reserved bytes of a message of the protocol. Nothing else is touched.
def setReserved (id : ClientId) (pkt : Bytes) : Bytes :=
  match pkt with
  | kind :: _ :: _ :: _ :: rest =>
    if kind < wgMsgTypeMin ∨ kind > wgMsgTypeMax then pkt else kind :: id.1 :: id.2.1 :: id.2.2 :: rest
  | _ => pkt

def injectClientId (pkt : Bytes) (id : ClientId) : Bytes :=
  setReserved id pkt

def stripClientId (pkt : Bytes) : Bytes :=
  setReserved (0, 0, 0) pkt

inductive TunnResult
  | done
  | err
  | writeToNetwork (pkt : Bytes)
  | writeToTunnel (pkt : Bytes)
deriving DecidableEq

structure Tunn (τ : Type) where
  decapsulate : τ → Bytes → τ × TunnResult

inductive Phase
  | recv
  | send (pkt : Bytes)
  | deliver (pkt : Bytes)
  | backoff
  | ended
deriving DecidableEq

inductive Event
  | received (datagram : Bytes)
  | failed (kind : ErrorKind)
  | called (input : Bytes) (result : TunnResult)
  | sent (pkt : Bytes)
  | delivered (pkt : Bytes)
deriving DecidableEq

structure State (τ : Type) where
  tunn : τ
  phase : Phase
  transientErrors : Nat
  lastValidRx : Nat
  past : List Event

inductive Label (τ : Type)
  -- The socket has a datagram, at a certain time.
  | recv (datagram : Bytes) (now : Nat)
  | fail (kind : ErrorKind)
  -- What the task waits for is done. The results of both sends are ignored.
  | sent
  | delivered
  | slept
  -- Another task has had the lock.
  | other (tunn : τ)

variable {τ : Type}

def Phase.after (id : ClientId) : TunnResult → Phase
  | .done | .err => .recv
  | .writeToNetwork pkt => if (injectClientId pkt id).length > 0 then .send (injectClientId pkt id) else .recv
  | .writeToTunnel pkt => .deliver pkt

namespace State

variable (T : Tunn τ) (id : ClientId)

def handle (s : State τ) (datagram : Bytes) (now : Nat) : State τ :=
  let input := stripClientId datagram
  let (tunn, result) := T.decapsulate s.tunn input
  { tunn
    phase := .after id result
    transientErrors := 0
    lastValidRx := if result = .err then s.lastValidRx else now
    past := .called input result :: .received datagram :: s.past }

def fail (s : State τ) (kind : ErrorKind) : State τ :=
  let transientErrors := s.transientErrors + 1
  if isTransientSocketError kind then
    { s with
      transientErrors
      phase := if transientErrors > maxTransientRecvErrors then .ended else .backoff
      past := .failed kind :: s.past }
  else
    { s with phase := .ended, past := .failed kind :: s.past }

def step (s : State τ) : Label τ → Option (State τ)
  | .recv datagram now => if s.phase = .recv then some (s.handle T id datagram now) else none
  | .fail kind => if s.phase = .recv then some (s.fail kind) else none
  | .sent =>
    match s.phase with
    | .send pkt => some { s with phase := .recv, past := .sent pkt :: s.past }
    | _ => none
  | .delivered =>
    match s.phase with
    | .deliver pkt => some { s with phase := .recv, past := .delivered pkt :: s.past }
    | _ => none
  | .slept => if s.phase = .backoff then some { s with phase := .recv } else none
  | .other tunn => some { s with tunn }

def initial (tunn : τ) (now : Nat) : State τ where
  tunn
  phase := .recv
  transientErrors := 0
  lastValidRx := now
  past := []

end State

end Engine.WireGuard
