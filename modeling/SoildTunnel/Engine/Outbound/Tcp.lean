import SoildTunnel.Engine.Addr
import SoildTunnel.Engine.Outbound.Udp

-- TCP over a TUIC session: one stream and one slot for each pipe of an application.
namespace Engine.Outbound

open Rust

def CMD_CONNECT : UInt8 := 0x01

-- `str::parse`: the whole text must be read.
def parseWhole {α : Type} (reader : Reader α) (t : Text) : Option α :=
  match reader t with
  | some (a, []) => some a
  | _ => none

def encodeAddress (host : Text) (port : UInt16) : Except String Bytes :=
  match parseWhole Reader.ipv4Addr host, parseWhole Reader.ipv6Addr host with
  | some v4, _ => .ok (ADDR_V4 :: v4.toList ++ Octets.toBytes16 port)
  | none, some v6 => .ok (ADDR_V6 :: v6.toList ++ Octets.toBytes16 port)
  | none, none =>
    let name := Text.utf8 host
    if name.length > 255 then .error "target name is too long for tuic"
    else .ok (ADDR_NAME :: name.length.toUInt8 :: name ++ Octets.toBytes16 port)

def connectHeader (host : Text) (port : UInt16) : Except String Bytes :=
  ([TUIC_VERSION, CMD_CONNECT] ++ ·) <$> encodeAddress host port

structure TcpSlot where
  -- Whether `to_app` is there; the channel itself is kept with the pipe.
  toApp : Bool := true
  pending : Bytes
  fin : Bool := false
  finSent : Bool := false
  remoteDone : Bool := false
deriving DecidableEq

-- What `stream_send` answers: at most so many bytes are taken.
inductive Sent
  | ok (written : Nat)
  | done
  | error
deriving DecidableEq

inductive Received
  | data (read : Bytes) (fin : Bool)
  | done
  | error
deriving DecidableEq

structure Quic where
  capacity : Option Nat
  send : Sent
  recv : List Received
deriving DecidableEq

structure TcpPipe where
  stream : Nat
  host : Text
  port : UInt16
  fromApp : Mpsc Bytes CHANNEL_DEPTH := .empty
  toApp : Mpsc Bytes CHANNEL_DEPTH := .empty
  held : Bool := true
  slot : TcpSlot
  removed : Bool := false
  -- The history: what the application sent, what the stream took, whether it took the end as well and
  -- whether it failed; and, once the application has left, the turns with an end or an error to report.
  chunks : List Bytes := []
  accepted : Bytes := []
  finished : Bool := false
  failed : Bool := false
  reports : Nat := 0
deriving DecidableEq

namespace TcpPipe

-- What the channel holds goes to the end of `pending`; then either it is empty or it has no sender.
def collect (p : TcpPipe) : TcpPipe :=
  { p with
    fromApp := p.fromApp.take p.fromApp.queue.length
    slot := { p.slot with
      pending := p.slot.pending ++ p.fromApp.queue.flatten
      fin := p.slot.fin || !p.held } }

-- The rest of the loop in `pump_outbound`. The stream takes the end only with all that was offered.
def offer (p : TcpPipe) (quic : Quic) : TcpPipe :=
  let slot := p.slot
  if slot.pending = [] ∧ ¬ (slot.fin ∧ ¬ slot.finSent) then p
  else
    let capacity := quic.capacity.getD 0
    if capacity = 0 ∧ slot.pending ≠ [] then p
    else
      let take := min capacity slot.pending.length
      let fin := slot.fin && take = slot.pending.length
      match quic.send with
      | .ok n =>
        let written := min n take
        { p with
          slot := { slot with pending := slot.pending.drop written, finSent := slot.finSent || fin }
          accepted := p.accepted ++ slot.pending.take written
          finished := p.finished || (fin && written = take) }
      | .done => p
      | .error => { p with slot := { slot with pending := [], fin := true }, failed := true }

def pumpOutbound (p : TcpPipe) (quic : Quic) : TcpPipe :=
  p.collect.offer quic

def endRemote (p : TcpPipe) : TcpPipe :=
  { p with slot := { p.slot with remoteDone := true, toApp := false } }

def pumpInbound (p : TcpPipe) (recv : List Received) : TcpPipe :=
  if p.slot.remoteDone ∨ ¬ p.slot.toApp then p
  else match p.toApp.tryReserve with
    | .full => p
    | .closed => { p with slot := { p.slot with toApp := false } }
    | .permit =>
      match recv with
      | [] | .done :: _ => p
      | .error :: _ => p.endRemote
      | .data read fin :: recv =>
        let p := if read = [] then p else { p with toApp := (p.toApp.trySend read).getD p.toApp }
        if fin then p.endRemote else p.pumpInbound recv

-- Nobody is left at the other ends of the channels.
def Orphaned (p : TcpPipe) : Prop :=
  p.held = false ∧ p.toApp.closed = true

instance {p : TcpPipe} : Decidable p.Orphaned :=
  inferInstanceAs (Decidable (_ ∧ _))

end TcpPipe

def Received.IsEnd : Received → Bool
  | .data _ fin => fin
  | .done => false
  | .error => true

-- The stream has ended or failed, in one direction or the other.
def Quic.Reports (quic : Quic) : Bool :=
  quic.send = .error || quic.recv.any Received.IsEnd

def TcpPipe.turn (p : TcpPipe) (quic : Quic) : TcpPipe :=
  let q := (p.pumpOutbound quic).pumpInbound quic.recv
  { q with
    removed := q.slot.remoteDone && q.slot.pending = [] && q.slot.finSent
    reports := if p.Orphaned ∧ quic.Reports then q.reports + 1 else q.reports }

structure OpenTcp where
  host : Text
  port : UInt16
  -- Whether the connection opens a stream.
  opened : Bool

-- All pipes that were ever opened. No number of a stream comes twice, so that `insert` replaces
-- nothing.
structure TcpSession where
  pipes : List TcpPipe := []
  nextStream : Nat := 0
deriving DecidableEq

inductive TcpLabel
  | turn (command : Option OpenTcp) (quic : Nat → Quic)
  | send (pipe : Nat) (chunk : Bytes)
  | close (pipe : Nat)
  | recv (pipe : Nat)
  | dropReceiver (pipe : Nat)

namespace TcpSession

def slots (s : TcpSession) : List TcpPipe :=
  s.pipes.filter fun p => !p.removed

def openStream (s : TcpSession) (command : OpenTcp) : Except String TcpPipe := do
  let head ← connectHeader command.host command.port
  if command.opened then
    return { stream := s.nextStream, host := command.host, port := command.port, slot := { pending := head } }
  else throw "quic"

def openTcp (s : TcpSession) (command : OpenTcp) : TcpSession :=
  match s.openStream command with
  | .ok pipe => { pipes := s.pipes ++ [pipe], nextStream := s.nextStream + 4 }
  | .error _ => s

def pump (s : TcpSession) (quic : Nat → Quic) : TcpSession :=
  { s with pipes := s.pipes.map fun p => if p.removed then p else p.turn (quic p.stream) }

-- With too many streams the rest of the turn is skipped.
def turn (streamLimit : Nat) (s : TcpSession) (command : Option OpenTcp) (quic : Nat → Quic) : TcpSession :=
  match command with
  | some command => if streamLimit ≤ s.slots.length then s else (s.openTcp command).pump quic
  | none => s.pump quic

-- An application does something at its ends of the channels of a slot.
def atPipe (s : TcpSession) (i : Nat) (f : TcpPipe → Option TcpPipe) : Option TcpSession :=
  s.pipes[i]?.bind fun p =>
    if p.removed then none else (f p).map fun q => { s with pipes := s.pipes.set i q }

def step (streamLimit : Nat) (s : TcpSession) : TcpLabel → Option TcpSession
  | .turn command quic => some (s.turn streamLimit command quic)
  | .send i chunk => s.atPipe i fun p =>
    if p.held then
      (p.fromApp.trySend chunk).map fun fromApp => { p with fromApp, chunks := p.chunks ++ [chunk] }
    else none
  | .close i => s.atPipe i fun p => some { p with held := false }
  | .recv i => s.atPipe i fun p => p.toApp.recv.map fun (_, toApp) => { p with toApp }
  | .dropReceiver i => s.atPipe i fun p => some { p with toApp := p.toApp.dropReceiver }

end TcpSession

end Engine.Outbound
