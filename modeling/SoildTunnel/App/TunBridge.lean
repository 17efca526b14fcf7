import SoildTunnel.Lib.Bounded
import SoildTunnel.Lib.Lts

-- The bridge between the TUN interface and the SOCKS port: TCP towards the applications, without
-- retransmission, and one queue of packets that all sessions write to.
namespace App.TunBridge

abbrev Bytes := List UInt8

-- Sequence numbers are kept as `Long`s and cut down with `and 0xFFFFFFFFL`.
def seqMask (n : Nat) : Nat := n % 2 ^ 32

structure TcpSegment where
  seq : Nat
  ack : Nat
  flags : UInt8
  payload : Bytes
deriving DecidableEq

def FIN : UInt8 := 0x01
def RST : UInt8 := 0x04

structure TcpSession where
  queue : Bounded Bytes 8192
  isClosed : Bool
  connected : Bool
  clientClosed : Bool
  mySeq : Nat
  myAck : Nat

namespace TcpSession

def created (initialSeq mySeq : Nat) : TcpSession where
  queue := .empty
  isClosed := false
  connected := false
  clientClosed := false
  mySeq
  myAck := seqMask (initialSeq + 1)

-- A session whose connection has been opened, after its SYN-ACK.
def opened (initialSeq mySeq : Nat) : TcpSession where
  queue := .empty
  isClosed := false
  connected := true
  clientClosed := false
  mySeq := seqMask (mySeq + 1)
  myAck := seqMask (initialSeq + 1)

def sendAck (s : TcpSession) : TcpSegment :=
  ⟨s.mySeq, s.myAck, 0x10, []⟩

def accept (s : TcpSession) (seq : Nat) (payload : Option Bytes) (flags : UInt8) : TcpSession × Option TcpSegment :=
  if flags &&& FIN ≠ 0 then
    if seq = s.myAck then
      let s := { s with myAck := seqMask (seq + 1) }
      ({ s with clientClosed := true }, some s.sendAck)
    else
      (s, some s.sendAck)
  else match payload with
    | none => (s, none)
    | some payload =>
      if seq = s.myAck then
        match s.queue.offer payload with
        | some queue =>
          let s := { s with queue, myAck := seqMask (seq + payload.length) }
          (s, some s.sendAck)
        | none => (s, none)
      else
        (s, some s.sendAck)

def handleFromTun (s : TcpSession) (seq : Nat) (payload : Option Bytes) (flags : UInt8) :
    TcpSession × Option TcpSegment :=
  if s.isClosed then (s, none)
  else if flags &&& RST ≠ 0 then ({ s with isClosed := true }, none)
  else if s.connected then s.accept seq payload flags
  else (if flags &&& FIN ≠ 0 then { s with isClosed := true } else s, none)

end TcpSession

inductive TunPacket
  | tcp (session : Nat) (segment : TcpSegment)
  | udp (payload : Bytes)
deriving DecidableEq

inductive Version
  | v4
  | v6
deriving DecidableEq

def maxPayload (mtu : Nat) : Version → Nat
  | .v4 => max (mtu - 40) 20
  | .v6 => max (mtu - 60) 20

-- A session with its reader: the part of the last read that has not been cut into segments yet.
structure Flow where
  version : Version
  tcp : TcpSession
  buffer : Bytes := []
  ended : Bool := false
  -- The history: the first sequence number for data, and all that was read.
  start : Nat
  read : Bytes := []

structure Bridge where
  mtu : Nat
  flows : List Flow := []
  tunOutputQueue : Bounded TunPacket 32768
  -- The threads in `enqueueTun` whose first offer has failed: before the poll, and after it.
  evicting : List TunPacket := []
  retrying : List TunPacket := []
  -- What the writer thread has taken out and not written yet, and what it has written.
  writing : Option TunPacket := none
  written : List TunPacket := []

inductive BridgeLabel
  | opened (version : Version) (initialSeq mySeq : Nat)
  | fromTun (i : Nat) (seq : Nat) (payload : Option Bytes) (flags : UInt8)
  | poll (i : Nat)
  | read (i : Nat) (bytes : Bytes)
  | chunk (i : Nat)
  | ended (i : Nat) (error : Bool)
  | close (i : Nat)
  | udp (payload : Bytes) (critical : Bool)
  | evict (k : Nat)
  | retry (k : Nat)
  | take
  | write (ok : Bool)

namespace Bridge

def enqueueTun (b : Bridge) (packet : TunPacket) (critical : Bool) : Bridge :=
  match b.tunOutputQueue.offer packet with
  | some tunOutputQueue => { b with tunOutputQueue }
  | none => if critical then { b with evicting := b.evicting ++ [packet] } else b

def setFlow (b : Bridge) (i : Nat) (f : Flow) : Bridge :=
  { b with flows := b.flows.set i f }

def chunkLen (b : Bridge) (f : Flow) : Nat :=
  min (maxPayload b.mtu f.version) f.buffer.length

def chunkPacket (b : Bridge) (i : Nat) (f : Flow) : TunPacket :=
  .tcp i ⟨f.tcp.mySeq, f.tcp.myAck, 0x18, f.buffer.take (b.chunkLen f)⟩

def chunkFlow (b : Bridge) (f : Flow) : Flow :=
  { f with
    tcp := { f.tcp with mySeq := seqMask (f.tcp.mySeq + b.chunkLen f) }
    buffer := f.buffer.drop (b.chunkLen f) }

-- A turn of the inner loop of `readFromSocks`, which does not ask whether the packet got in.
def chunk (b : Bridge) (i : Nat) (f : Flow) : Bridge :=
  (b.enqueueTun (b.chunkPacket i f) false).setFlow i (b.chunkFlow f)

-- The last read of `readFromSocks`. Only at the end of the stream a FIN goes out.
def ended (b : Bridge) (i : Nat) (f : Flow) (error : Bool) : Bridge :=
  if error then
    b.setFlow i { f with tcp := { f.tcp with isClosed := true }, ended := true }
  else
    (b.enqueueTun (.tcp i ⟨f.tcp.mySeq, f.tcp.myAck, 0x11, []⟩) true).setFlow i { f with
      tcp := { f.tcp with mySeq := seqMask (f.tcp.mySeq + 1), isClosed := true }
      ended := true }

def step (b : Bridge) : BridgeLabel → Option Bridge
  | .opened version initialSeq mySeq =>
    let tcp := TcpSession.opened initialSeq mySeq
    let b := b.enqueueTun (.tcp b.flows.length ⟨seqMask mySeq, tcp.myAck, 0x12, []⟩) true
    some { b with flows := b.flows ++ [{ version, tcp, start := tcp.mySeq }] }
  | .fromTun i seq payload flags =>
    b.flows[i]?.map fun f =>
      let (tcp, ack) := f.tcp.handleFromTun seq payload flags
      let b := b.setFlow i { f with tcp }
      match ack with
      | some ack => b.enqueueTun (.tcp i ack) true
      | none => b
  | .poll i =>
    b.flows[i]?.bind fun f => f.tcp.queue.poll.map fun (_, queue) =>
      b.setFlow i { f with tcp := { f.tcp with queue } }
  | .read i bytes =>
    b.flows[i]?.bind fun f =>
      -- A close may come while the read waits, so that it does not count here.
      if f.ended ∨ f.buffer ≠ [] ∨ bytes = [] ∨ 131072 < bytes.length then none
      else some (b.setFlow i { f with buffer := bytes, read := f.read ++ bytes })
  | .chunk i =>
    b.flows[i]?.bind fun f => if f.buffer = [] then none else some (b.chunk i f)
  | .ended i error =>
    b.flows[i]?.bind fun f => if f.ended ∨ f.buffer ≠ [] then none else some (b.ended i f error)
  | .close i => b.flows[i]?.map fun f => b.setFlow i { f with tcp := { f.tcp with isClosed := true } }
  | .udp payload critical => some (b.enqueueTun (.udp payload) critical)
  | .evict k =>
    b.evicting[k]?.map fun packet =>
      { b with
        tunOutputQueue := (b.tunOutputQueue.poll.map (·.2)).getD b.tunOutputQueue
        evicting := b.evicting.eraseIdx k
        retrying := b.retrying ++ [packet] }
  | .retry k =>
    b.retrying[k]?.map fun packet =>
      { b with
        tunOutputQueue := (b.tunOutputQueue.offer packet).getD b.tunOutputQueue
        retrying := b.retrying.eraseIdx k }
  | .take =>
    if b.writing = none then
      b.tunOutputQueue.poll.map fun (packet, tunOutputQueue) =>
        { b with tunOutputQueue, writing := some packet }
    else
      none
  | .write ok =>
    b.writing.map fun packet =>
      { b with writing := none, written := if ok then b.written ++ [packet] else b.written }

end Bridge

end App.TunBridge
