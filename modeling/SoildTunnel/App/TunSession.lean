import SoildTunnel.App.TunBridge

-- The three threads of one session of the bridge once its connection is open: the TUN reader, the
-- upload loop and the reader of the SOCKS socket.
namespace App.TunBridge

structure ClientSegment where
  seq : Nat
  payload : Option Bytes
  flags : UInt8
  noReset : flags &&& RST = 0

-- The statements of `close()`: only the thread that sets the flag closes the socket.
inductive Close
  | flag
  | socket
  | done
deriving DecidableEq

inductive TunPc
  | idle
  | offer (payload : Bytes)
  | advance (payload : Bytes)
  | sendAck
  | advanceFin (byte : Bytes)
  | sendAckFin
  | clientClosed
  | close (c : Close)
deriving DecidableEq

inductive UploadPc
  | loop
  | poll
  | write (count : Nat)
  | spill (count : Nat)
  | direct (count : Nat)
  | more (count : Nat)
  | flush
  -- The test before `shutdownOutput`, and the call, after a flush or after a poll without data.
  | check (flushed : Bool)
  | shutdown (flushed : Bool)
  | idleCheck
  | close (c : Close)
deriving DecidableEq

inductive DownloadPc
  | read
  | close (c : Close)
deriving DecidableEq

structure Session where
  tcp : TcpSession
  socketClosed : Bool := false
  outputShutdown : Bool := false
  tun : TunPc := .idle
  upload : UploadPc := .loop
  download : DownloadPc := .read
  -- What the loop has polled and not passed on, what the buffered stream holds, and what has been
  -- written to the socket.
  hand : Bytes := []
  buffer : Bytes := []
  written : Bytes := []
  -- The history: the payload that was queued, the payload that `myAck` covers, how much of that has
  -- been acknowledged, and how much of it came with a FIN and was never queued.
  put : Bytes := []
  covered : Bytes := []
  acked : Nat := 0
  skipped : Nat := 0

inductive SessionLabel
  | receive (g : ClientSegment)
  | blocked
  | tun
  | upload
  | pollTimeout
  | idle (expired : Bool)
  | send (n : Nat)
  | sendFailed
  | read
  | endOfStream
  | readFailed
  | download

namespace Session

def BUFFER_SIZE : Nat := 131072

def opened (initialSeq mySeq : Nat) : Session where
  tcp := .opened initialSeq mySeq

variable (s : Session)

-- Any packet that is passed to `enqueueTun` carries `myAck`.
def acknowledge : Session :=
  { s with acked := max s.acked s.covered.length }

def close : Close → Session × Close
  | .flag => if s.tcp.isClosed then (s, .done) else ({ s with tcp := { s.tcp with isClosed := true } }, .socket)
  | .socket => ({ s with socketClosed := true }, .done)
  | .done => (s, .done)

-- What `handleFromTun` is going to do with a segment. A FIN comes before the payload, and the one
-- number it takes is that of the first byte, if there is one.
def receive (g : ClientSegment) : TunPc :=
  if s.tcp.isClosed then .idle
  else if g.flags &&& FIN ≠ 0 then
    if g.seq = s.tcp.myAck then .advanceFin ((g.payload.getD []).take 1) else .sendAck
  else
    match g.payload with
    | none => .idle
    | some payload => if g.seq = s.tcp.myAck then .offer payload else .sendAck

def tunStep : TunPc → Option Session
  | .idle => none
  | .offer payload =>
    match s.tcp.queue.offer payload with
    | some queue =>
      some { s with tcp := { s.tcp with queue }, put := s.put ++ payload, tun := .advance payload }
    | none => some { s with tun := .idle }
  | .advance payload =>
    some { s with
      tcp := { s.tcp with myAck := seqMask (s.tcp.myAck + payload.length) }
      covered := s.covered ++ payload
      tun := .sendAck }
  | .sendAck => some { s.acknowledge with tun := .idle }
  | .advanceFin byte =>
    some { s with
      tcp := { s.tcp with myAck := seqMask (s.tcp.myAck + 1) }
      covered := s.covered ++ byte
      skipped := s.skipped + byte.length
      tun := .sendAckFin }
  | .sendAckFin => some { s.acknowledge with tun := .clientClosed }
  | .clientClosed => some { s with tcp := { s.tcp with clientClosed := true }, tun := .idle }
  | .close .done => some { s with tun := .idle }
  | .close c => some { (s.close c).1 with tun := .close (s.close c).2 }

def afterShutdown (flushed : Bool) : UploadPc :=
  if flushed then .loop else .idleCheck

def take (count : Nat) (otherwise : UploadPc) : Session :=
  match s.tcp.queue.poll with
  | some (data, queue) => { s with tcp := { s.tcp with queue }, hand := data, upload := .write count }
  | none => { s with upload := otherwise }

-- A write fits if the stream only has to copy it into its buffer; otherwise it writes the buffer
-- first, and what is as large as the buffer past it.
def Fits : Prop :=
  s.hand.length < BUFFER_SIZE ∧ s.buffer.length + s.hand.length ≤ BUFFER_SIZE

instance : Decidable s.Fits :=
  inferInstanceAs (Decidable (_ ∧ _))

def copy (count : Nat) : Session :=
  { s with buffer := s.buffer ++ s.hand, hand := [], upload := .more count }

def uploadStep : UploadPc → Option Session
  | .loop => some { s with upload := if s.tcp.isClosed then .close .flag else .poll }
  | .poll => if s.tcp.queue.items = [] then none else some (s.take 0 .poll)
  | .write count => some (if s.Fits then s.copy count else { s with upload := .spill count })
  | .spill count =>
    if s.buffer ≠ [] then none
    else some (if s.hand.length < BUFFER_SIZE then s.copy count else { s with upload := .direct count })
  | .direct count => if s.hand = [] then some { s with upload := .more count } else none
  | .more count => if count < 64 then some (s.take (count + 1) .flush) else some { s with upload := .flush }
  | .flush => if s.buffer = [] then some { s with upload := .check true } else none
  | .check flushed =>
    let last := s.tcp.clientClosed ∧ s.tcp.queue.items = []
    some { s with upload := if last then .shutdown flushed else afterShutdown flushed }
  | .shutdown flushed => some { s with outputShutdown := true, upload := afterShutdown flushed }
  | .idleCheck => none
  | .close .done => none
  | .close c => some { (s.close c).1 with upload := .close (s.close c).2 }

-- Where the loop waits for the socket to take bytes out of the buffer, or out of its hand.
def flushes : Bool :=
  match s.upload with
  | .spill _ | .flush => s.buffer ≠ []
  | _ => false

def writesDirectly : Bool :=
  match s.upload with
  | .direct _ => s.hand ≠ []
  | _ => false

def send (n : Nat) : Option Session :=
  if s.socketClosed ∨ s.outputShutdown then none
  else if s.flushes then some { s with written := s.written ++ s.buffer.take n, buffer := s.buffer.drop n }
  else if s.writesDirectly then some { s with written := s.written ++ s.hand.take n, hand := s.hand.drop n }
  else none

def downloadStep : DownloadPc → Option Session
  | .read => none
  | .close .done => none
  | .close c => some { (s.close c).1 with download := .close (s.close c).2 }

def step (s : Session) : SessionLabel → Option Session
  | .receive g => if s.tun = .idle then some { s with tun := s.receive g } else none
  | .blocked => if s.tun = .idle then some { s with tun := .close .flag } else none
  | .tun => s.tunStep s.tun
  | .upload => s.uploadStep s.upload
  | .pollTimeout =>
    if s.upload = .poll ∧ s.tcp.queue.items = [] then some { s with upload := .check false } else none
  | .idle expired =>
    if s.upload = .idleCheck then some { s with upload := if expired then .close .flag else .loop } else none
  | .send n => s.send n
  | .sendFailed => if s.flushes ∨ s.writesDirectly then some { s with upload := .close .flag } else none
  -- Packets may still go out after the session has been closed by another thread.
  | .read => if s.download = .read then some s.acknowledge else none
  | .endOfStream => if s.download = .read then some { s.acknowledge with download := .close .flag } else none
  | .readFailed => if s.download = .read then some { s with download := .close .flag } else none
  | .download => s.downloadStep s.download

end Session

end App.TunBridge
