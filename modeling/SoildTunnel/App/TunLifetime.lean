import SoildTunnel.App.TunDns

-- A session of the bridge from its first segment to its removal: `TcpSession.run`, `readFromSocks` and the
-- thread that handles the segments of the client.
namespace App.TunBridge

open Kotlin

-- Where `run` is. On the way out, `told` says that the client was sent a reset.
inductive RunPc
  | start
  | synAck
  -- In `queue.poll(1, TimeUnit.SECONDS)`.
  | sniff
  | sniffed (firstPacket : Bytes)
  | decide
  | direct
  | socks
  | request
  | reply
  | connected
  | answer
  | relay
  | closing (told : Bool)
  | ended (told : Bool)
deriving DecidableEq

-- Where `readFromSocks` is. On the way out, `told` says that the stream has ended.
inductive ReadPc
  | unstarted
  | read
  | closing (told : Bool)
  | ended (told : Bool)
deriving DecidableEq

structure Lifetime where
  tcp : TcpSession
  dns : DnsMap := .empty
  pc : RunPc := .start
  read : ReadPc := .unstarted
  cachedDomain : Option Text := none
  mode : RoutingMode := .tunnel
  synAckSent : Bool := false
  sniffedDomain : Option Text := none
  -- What the SOCKS port was asked for, and the segments that were passed to `enqueueTun`.
  requested : Option Target := none
  sent : List TcpSegment := []
  isRunning : Bool := true
  -- A thread has set the flag in `close()` and not removed the session yet.
  removing : Bool := false
  removed : Bool := false
  -- The history: a reset of the client got to the session.
  reset : Bool := false

inductive LifetimeLabel
  | segment (g : Segment)
  -- The TUN reader finds that the application is blocked, or that a session without a connection is too old.
  | blocked
  | stale
  -- Other threads work with the cache of names, or stop the bridge.
  | cache (dns : DnsMap)
  | stop
  | run (now : Nat)
  -- A second has passed without a packet.
  | timeout
  -- Whether there is a network to go to directly, and whether the connection and its handshake succeed.
  | network (available : Bool)
  | connects (ok : Bool)
  -- Five minutes have passed without activity, or there is an exception.
  | idle
  | failed
  | data (chunk : Bytes)
  | endOfStream
  | readFailed
  | reader
  | remove

namespace Lifetime

def created (initialSeq mySeq : Nat) (dns : DnsMap) : Lifetime where
  tcp := .created initialSeq mySeq
  dns

variable (b : Settings) (start : Start)

-- The decision for a name that was found in the first payload.
def sniffedMode (name : Text) : RoutingMode :=
  b.routingEngine.resolve (hostAddress start.serverIp) start.serverPort none
    (if start.serverPort = 443 then some name else none) (if start.serverPort = 80 then some name else none)

variable (s : Lifetime)

def send (flags : UInt8) (payload : Bytes := []) : Lifetime :=
  { s with sent := s.sent ++ [⟨s.tcp.mySeq, s.tcp.myAck, flags, payload⟩] }

def advance (n : Nat) : Lifetime :=
  { s with tcp := { s.tcp with mySeq := seqMask (s.tcp.mySeq + n) } }

def sendSynAck : Lifetime :=
  (s.send 0x12).advance 1

-- `isClosed.getAndSet(true)`
def close : Lifetime :=
  if s.tcp.isClosed then s else { s with tcp := { s.tcp with isClosed := true }, removing := true }

def lookup : Lifetime :=
  let ip := hostAddress start.serverIp
  let (dns, cachedDomain) := DnsMap.get s.dns ip start.now
  let mode := b.routingEngine.resolve ip start.serverPort cachedDomain none none
  let sniffs := mode = .tunnel ∧ cachedDomain = none ∧ (start.serverPort = 80 ∨ start.serverPort = 443)
  { s with dns, cachedDomain, mode, pc := if sniffs then .synAck else .decide }

-- The first packet goes back to the front of the queue.
def sniff (firstPacket : Bytes) (now : Nat) : Lifetime :=
  let s :=
    match b.sniffDomain firstPacket start.serverPort with
    | some name =>
      { s with
        sniffedDomain := some name
        dns := DnsMap.putName b.platform s.dns (hostAddress start.serverIp) name now
        mode := sniffedMode b start name }
    | none => s
  match s.tcp.queue.addFirst firstPacket with
  | some queue => { s with tcp := { s.tcp with queue }, pc := .decide }
  | none => { s with pc := .closing false }

def runStep (now : Nat) : Option Lifetime :=
  match s.pc with
  | .start => some (s.lookup b start)
  | .synAck => some { s.sendSynAck with synAckSent := true, pc := .sniff }
  | .sniff =>
    s.tcp.queue.poll.map fun (firstPacket, queue) =>
      { s with tcp := { s.tcp with queue }, pc := .sniffed firstPacket }
  | .sniffed firstPacket => some (s.sniff b start firstPacket now)
  | .decide =>
    match s.mode with
    | .tunnel => some { s with pc := .socks }
    | .block =>
      some (if s.synAckSent then { s.send 0x04 with pc := .closing true } else { s with pc := .closing false })
    | .direct => none
  | .request =>
    let domain := s.sniffedDomain.or s.cachedDomain
    some { s with requested := some (domain.elim (.address start.serverIp) .domain), pc := .reply }
  | .connected => some { s with tcp := { s.tcp with connected := true }, pc := .answer }
  | .answer =>
    if s.tcp.isClosed then some { s with pc := .closing false }
    else some { (if s.synAckSent then s else s.sendSynAck) with pc := .relay, read := .read }
  | .relay =>
    if s.tcp.isClosed ∨ ¬ s.isRunning then some { s with pc := .closing false }
    else s.tcp.queue.poll.map fun (_, queue) => { s with tcp := { s.tcp with queue } }
  | .closing told => some { s.close with pc := .ended told }
  | .direct | .socks | .reply | .ended _ => none

-- The next statement of `readFromSocks`, which looks at the flags before each read.
def readStep : Option Lifetime :=
  match s.read with
  | .read => if s.tcp.isClosed ∨ ¬ s.isRunning then some { s with read := .closing false } else none
  | .closing told => some { s.close with read := .ended told }
  | .unstarted | .ended _ => none

-- A reset, and a FIN before there is a connection, close the session.
def handleFromTun (g : Segment) : Lifetime :=
  let (tcp, answer) := s.tcp.handleFromTun g.seq g.payload g.flags
  { s with
    tcp
    sent := s.sent ++ answer.toList
    removing := s.removing || (tcp.isClosed && !s.tcp.isClosed)
    reset := s.reset || (g.flags &&& RST ≠ 0 && !s.tcp.isClosed) }

-- The TUN reader takes the session out of the table first and then closes it.
def evict : Lifetime :=
  { s with tcp := { s.tcp with isClosed := true }, removing := false, removed := true }

def step (s : Lifetime) : LifetimeLabel → Option Lifetime
  | .segment g => if s.removed then none else some (s.handleFromTun g)
  | .blocked => if s.removed then none else some s.evict
  | .stale => if s.removed ∨ s.tcp.connected then none else some s.evict
  | .cache dns => some { s with dns }
  | .stop => some { s.close with isRunning := false }
  | .run now => s.runStep b start now
  | .timeout =>
    if s.pc = .sniff ∧ s.tcp.queue.items = [] then some { s with pc := .decide } else none
  | .network available =>
    if s.pc = .decide ∧ s.mode = .direct then
      some (if available then { s with pc := .direct } else { s.send 0x14 with pc := .closing true })
    else
      none
  | .connects ok =>
    match s.pc with
    | .direct | .reply => some { s with pc := if ok then .connected else .closing false }
    | .socks => some { s with pc := if ok then .request else .closing false }
    | _ => none
  | .idle => if s.pc = .relay then some { s with pc := .closing false } else none
  | .failed =>
    match s.pc with
    | .closing _ | .ended _ => none
    | _ => some { s with pc := .closing false }
  | .data chunk =>
    if s.read = .read then some ((s.send 0x18 chunk).advance chunk.length) else none
  | .endOfStream =>
    if s.read = .read then some { (s.send 0x11).advance 1 with read := .closing true } else none
  | .readFailed => if s.read = .read then some { s with read := .closing false } else none
  | .reader => s.readStep
  | .remove => if s.removing then some { s with removing := false, removed := true } else none

end Lifetime

end App.TunBridge
