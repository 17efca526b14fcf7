import SoildTunnel.Engine.Outbound.Packet
import SoildTunnel.Lib.Lts
import SoildTunnel.Lib.Mpsc

-- UDP over a TUIC session: one slot for a pipe of an application, and the table in which the
-- fragments of its answers are put together.
namespace Engine.Outbound

open Rust

def CHANNEL_DEPTH : Nat := 512

-- A part is kept with a mark `τ` of the datagram that it came in; the code has no such marks.
structure FragmentBox (τ : Type) where
  total : UInt8
  parts : List (Option (Bytes × τ))
  filled : Nat
  address : PeerAddr
deriving DecidableEq

abbrev FragmentKey := UInt16 × UInt16

abbrev FragmentTable (τ : Type) := FragmentKey → Option (FragmentBox τ)

structure Joined (τ : Type) where
  address : PeerAddr
  payload : Bytes
  marks : List τ

namespace FragmentBox

variable {τ : Type}

def new (total : UInt8) : FragmentBox τ where
  total := total
  parts := List.replicate total.toNat none
  filled := 0
  address := .none

-- A box keeps the total of the fragment that opened it. One with an index past it is a panic.
def insert (box : FragmentBox τ) (head : PacketHead) (payload : Bytes) (mark : τ) : Option (FragmentBox τ) :=
  let box := if head.index = 0 then { box with address := head.address } else box
  box.parts[head.index.toNat]?.map fun
    | some _ => box
    | none => { box with
        parts := box.parts.set head.index.toNat (some (payload, mark))
        filled := box.filled + 1 }

def joined (box : FragmentBox τ) : Joined τ where
  address := box.address
  payload := box.parts.flatMap fun part => part.elim [] (·.1)
  marks := box.parts.filterMap fun part => part.map (·.2)

end FragmentBox

namespace FragmentTable

variable {τ : Type}

def empty : FragmentTable τ := fun _ => none

def fragment (table : FragmentTable τ) (head : PacketHead) (payload : Bytes) (mark : τ) :
    Option (FragmentTable τ × Option (Joined τ)) :=
  let key := (ASSOC_ID, head.packet)
  (((table key).getD (.new head.total)).insert head payload mark).map fun box =>
    if box.filled = box.total.toNat then (Function.update table key none, some box.joined)
    else (Function.update table key (some box), none)

def receive (table : FragmentTable τ) (buffer : Bytes) (mark : τ) : Option (FragmentTable τ × Option (Joined τ)) :=
  if buffer.length < PACKET_HEADER ∨ buffer[1]? ≠ some CMD_PACKET then some (table, none)
  else match parsePacketHead buffer with
    | .error _ => some (table, none)
    | .ok head =>
      let payload := (buffer.drop head.consumed).take head.size
      if buffer.length < head.consumed + head.size then some (table, none)
      else if head.total ≤ 1 then some (table, some ⟨head.address, payload, [mark]⟩)
      else if head.total ≤ head.index then some (table, none)
      else table.fragment head payload mark

end FragmentTable

structure UdpPipe where
  fromApp : Mpsc (UdpTarget × Bytes) CHANNEL_DEPTH
  toApp : Mpsc (SocketAddr × Bytes) CHANNEL_DEPTH
  held : Bool

def UdpPipe.new : UdpPipe where
  fromApp := .empty
  toApp := .empty
  held := true

structure Request where
  pipe : Nat
  packet : UInt16
  target : UdpTarget
  payload : Bytes

structure Delivery where
  pipe : Nat
  source : SocketAddr
  payload : Bytes
  answers : List Nat

structure Session where
  pipes : List UdpPipe := []
  udp : Option Nat := none
  fragments : FragmentTable Nat := .empty
  nextPacket : UInt16 := 0
  panicked : Bool := false
  -- The history: what was sent and delivered, and which pipes lost their place while they were held.
  requests : List Request := []
  delivered : List Delivery := []
  cut : List Nat := []

inductive UdpLabel
  | openUdp
  | send (pipe : Nat) (target : UdpTarget) (payload : Bytes)
  | close (pipe : Nat)
  | recv (pipe : Nat)
  | dropReceiver (pipe : Nat)
  | fromApp (writable : Option Nat)
  | datagram (request : Nat) (buffer : Bytes) (found : Option SocketAddr)

namespace Session

def modify (s : Session) (i : Nat) (f : UdpPipe → UdpPipe) : Session :=
  { s with pipes := s.pipes.modify i f }

def Held (s : Session) (i : Nat) : Prop :=
  ∃ p ∈ s.pipes[i]?, p.held

instance {s : Session} {i : Nat} : Decidable (s.Held i) :=
  inferInstanceAs (Decidable (∃ p ∈ s.pipes[i]?, p.held))

def release (s : Session) : Session :=
  match s.udp with
  | some i => { s.modify i fun p => { p with fromApp := p.fromApp.dropReceiver } with udp := none }
  | none => s

def openUdp (s : Session) : Session :=
  { s.release with
    pipes := s.release.pipes ++ [.new]
    udp := some s.pipes.length
    fragments := .empty
    cut := s.cut ++ s.udp.toList.filter fun i => s.Held i }

def fromApp (s : Session) (writable : Option Nat) : Option Session :=
  s.udp.bind fun i => s.pipes[i]?.bind fun p =>
    match p.fromApp.recv with
    | some ((target, payload), rest) =>
      let sent := sendUdp writable s.nextPacket target payload
      some { s.modify i fun p => { p with fromApp := rest } with
        nextPacket := s.nextPacket + 1
        requests := if sent = [] then s.requests else s.requests ++ [⟨i, s.nextPacket, target, payload⟩] }
    | none => if p.held then none else some s.release

-- `found` is what a name of the server resolves to.
def deliver (s : Session) (found : Option SocketAddr) (joined : Joined Nat) : Session :=
  let source := match joined.address with
    | .ip addr => some addr
    | .name .. => found
    | .none => none
  let delivery := s.udp.bind fun i => s.pipes[i]?.bind fun p => source.bind fun source =>
    (p.toApp.trySend (source, joined.payload)).map fun toApp => (i, source, toApp)
  match delivery with
  | some (i, source, toApp) =>
    { s.modify i fun p => { p with toApp } with
      delivered := s.delivered ++ [⟨i, source, joined.payload, joined.marks⟩] }
  | none => s

-- The server answers in the association and under the packet number of the request.
def Answers (request : Request) (buffer : Bytes) : Prop :=
  [TUIC_VERSION, CMD_PACKET] ++ Octets.toBytes16 ASSOC_ID ++ Octets.toBytes16 request.packet <+: buffer

instance {request : Request} {buffer : Bytes} : Decidable (Answers request buffer) :=
  inferInstanceAs (Decidable (_ <+: buffer))

def datagram (s : Session) (k : Nat) (buffer : Bytes) (found : Option SocketAddr) : Option Session :=
  s.requests[k]?.bind fun request =>
    if Answers request buffer then
      some <| match s.fragments.receive buffer k with
        | none => { s with panicked := true }
        | some (fragments, joined) => joined.elim { s with fragments } ({ s with fragments }.deliver found)
    else
      none

def step (s : Session) (l : UdpLabel) : Option Session :=
  if s.panicked then none
  else match l with
    | .openUdp => some s.openUdp
    | .send i target payload =>
      s.pipes[i]?.bind fun p =>
        if p.held then
          (p.fromApp.trySend (target, payload)).map fun fromApp => s.modify i fun p => { p with fromApp }
        else
          none
    | .close i => some (s.modify i fun p => { p with held := false })
    | .recv i =>
      s.pipes[i]?.bind fun p => p.toApp.recv.map fun (_, toApp) => s.modify i fun p => { p with toApp }
    | .dropReceiver i => some (s.modify i fun p => { p with toApp := p.toApp.dropReceiver })
    | .fromApp writable => s.fromApp writable
    | .datagram k buffer found => s.datagram k buffer found

end Session

end Engine.Outbound
