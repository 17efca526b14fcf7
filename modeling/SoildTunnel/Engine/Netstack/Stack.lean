import SoildTunnel.Engine.Netstack.Interface
import SoildTunnel.Engine.Netstack.Socket
import SoildTunnel.Lib.Mpsc

namespace Engine

-- The performance profile of the device (`sysprofile::Tier`).
inductive Tier
  | low
  | medium
  | high
deriving DecidableEq

namespace Tier

def netstackTcpBuf : Tier → Nat
  | low => 128 * 1024
  | medium => 256 * 1024
  | high => 512 * 1024

def channelCapacity : Tier → Nat
  | low => 128
  | medium => 512
  | high => 1024

def maxTcpPending (t : Tier) : Nat :=
  max (t.netstackTcpBuf * 2) (64 * 1024)

end Tier

namespace Netstack

def MAX_RECV_CHUNKS : Nat := 128

inductive Requester
  | waiting
  | gone
deriving DecidableEq

inductive Cmd
  | openTcp (dst : SocketAddr) (resp : Requester)
  | openUdp (resp : Requester)
  | setAddrs (v4 : Option (Ipv4Addr × UInt8)) (v6 : Option (Ipv6Addr × UInt8))
deriving DecidableEq

def Cmd.ports : Cmd → Nat
  | .openTcp .. | .openUdp .. => 1
  | .setAddrs .. => 0

inductive DataIn
  | tcp (id : Nat) (data : Bytes)
  | tcpClose (id : Nat)
  | udp (id : Nat) (dst : SocketAddr) (data : Bytes)
  | udpClose (id : Nat)
deriving DecidableEq

variable (tier : Tier)

abbrev DataQueue := Mpsc DataIn tier.channelCapacity

structure TcpState where
  handle : Nat
  toApp : Mpsc Bytes tier.channelCapacity
  -- The stack keeps the receiving end until the connection is handed out.
  fromStackRx : Bool
  connectResp : Option Requester
  pending : Bytes
  established : Bool
  halfClosed : Bool
deriving DecidableEq

structure UdpState where
  handle : Nat
  toApp : Mpsc (SocketAddr × Bytes) tier.channelCapacity
deriving DecidableEq

structure NetStack where
  iface : Interface
  sockets : SocketSet
  tcpConns : Nat → Option (TcpState tier)
  udpConns : Nat → Option (UdpState tier)
  nextId : Nat
  nextPort : Nat

-- What a round of service does for the rest of the engine to see: the answer to the open request,
-- and the calls on the connection's socket and channel.
inductive Effect
  | connected
  -- Nobody waits for the connection any more, so that it is dropped at once; whether its closing
  -- message found room in the queue.
  | orphaned (queued : Bool)
  | refused
  | handed (data : Bytes)
  | closed
  | delivered (chunk : Bytes)
  | receiverDropped
  | removed
  -- A connection that was never established is removed.
  | discarded
deriving DecidableEq

def newRing : RingBuffer where
  capacity := tier.netstackTcpBuf
  readAt := 0
  unread := []
  readAt_lt := by cases tier <;> simp [Tier.netstackTcpBuf]
  length_le := by simp

def newTcpSocket (dst : SocketAddr) (localPort : Nat) : Tcp.Socket where
  state := .synSent
  localPort := localPort
  remote := dst
  txRoom := tier.netstackTcpBuf
  rx := newRing tier

def allocPort (p : Nat) : Nat :=
  if p ≥ 65000 then 49152 else p + 1

variable {tier}

namespace NetStack

def setTcp (s : NetStack tier) (id : Nat) (st : TcpState tier) : NetStack tier :=
  { s with tcpConns := Function.update s.tcpConns id (some st) }

def eraseTcp (s : NetStack tier) (id handle : Nat) : NetStack tier :=
  { s with
    sockets := s.sockets.remove handle
    tcpConns := Function.update s.tcpConns id none }

def setUdp (s : NetStack tier) (id : Nat) (st : UdpState tier) : NetStack tier :=
  { s with udpConns := Function.update s.udpConns id (some st) }

def eraseUdp (s : NetStack tier) (id handle : Nat) : NetStack tier :=
  { s with
    sockets := s.sockets.remove handle
    udpConns := Function.update s.udpConns id none }

end NetStack

-- A message that a destructor sends is lost when the queue is full.
def sendFromDrop (q : DataQueue tier) (d : DataIn) : DataQueue tier :=
  (q.trySend d).getD q

def addTcp (s : NetStack tier) (dst : SocketAddr) (resp : Requester) : NetStack tier :=
  let (sockets, handle) := s.sockets.add (.tcp (newTcpSocket tier dst s.nextPort))
  { s with
    sockets
    tcpConns := Function.update s.tcpConns s.nextId <| some {
      handle
      toApp := .empty
      fromStackRx := true
      connectResp := some resp
      pending := []
      established := false
      halfClosed := false
    }
    nextId := s.nextId + 1
    nextPort := allocPort s.nextPort }

def addUdp (s : NetStack tier) (resp : Requester) : NetStack tier :=
  let (sockets, handle) := s.sockets.add (.udp ⟨s.nextPort, []⟩)
  let toApp : Mpsc (SocketAddr × Bytes) tier.channelCapacity := .empty
  { s with
    sockets
    udpConns := Function.update s.udpConns s.nextId <| some {
      handle
      toApp := if resp = .gone then toApp.dropReceiver else toApp
    }
    nextId := s.nextId + 1
    nextPort := allocPort s.nextPort }

-- `handle_cmd`. `connects` is the library's answer to `connect`; a refused one has used up its port.
-- `none` is a panic.
def handleCmd (s : NetStack tier) (q : DataQueue tier) (connects : Bool) :
    Cmd → Option (NetStack tier × DataQueue tier)
  | .openTcp dst resp =>
    if connects then
      some (addTcp s dst resp, q)
    else
      some ({ s with nextPort := allocPort s.nextPort }, q)
  | .openUdp resp =>
    some (addUdp s resp, if resp = .gone then sendFromDrop q (.udpClose s.nextId) else q)
  | .setAddrs v4 v6 =>
    (applyAddrs s.iface v4 v6).map fun iface => ({ s with iface }, q)

-- `try_handle_data`: the second component is what must be deferred. A missing socket is a panic.
-- What a UDP socket sends leaves the model.
def tryHandleData (s : NetStack tier) : DataIn → Option (NetStack tier × Option DataIn)
  | .tcp id data =>
    match s.tcpConns id with
    | none => some (s, none)
    | some st =>
      let space := tier.maxTcpPending - st.pending.length
      if st.pending.length ≥ tier.maxTcpPending then
        some (s, some (.tcp id data))
      else if data.length ≤ space then
        some (s.setTcp id { st with pending := st.pending ++ data }, none)
      else
        some (s.setTcp id { st with pending := st.pending ++ data.take space },
          some (.tcp id (data.drop space)))
  | .tcpClose id =>
    match s.tcpConns id with
    | none => some (s, none)
    | some st => some (s.setTcp id { st with halfClosed := true }, none)
  | .udp id _ _ =>
    match s.udpConns id with
    | none => some (s, none)
    | some st => (s.sockets.udp? st.handle).map fun _ => (s, none)
  | .udpClose id =>
    match s.udpConns id with
    | none => some (s, none)
    | some st =>
      (s.sockets.get? st.handle).map fun _ => (s.eraseUdp id st.handle, none)

-- A connection with its socket: what one round of `service_tcp` works on.
variable (tier) in
structure Entry where
  st : TcpState tier
  socket : Tcp.Socket

def entryOf (s : NetStack tier) (id : Nat) : Option (Entry tier) :=
  (s.tcpConns id).bind fun st => (s.sockets.tcp? st.handle).map fun socket => ⟨st, socket⟩

structure AppMove where
  taken : Nat := 0
  drops : Bool := false

def TcpState.appMove (m : AppMove) (st : TcpState tier) : TcpState tier × List Effect :=
  if st.fromStackRx then
    (st, [])
  else if m.drops then
    ({ st with toApp := st.toApp.dropReceiver }, [.receiverDropped])
  else
    ({ st with toApp := st.toApp.take m.taken }, [])

def TcpState.push (chunk : Bytes) (st : TcpState tier) : TcpState tier :=
  { st with toApp := (st.toApp.trySend chunk).getD st.toApp }

namespace Entry

def close (e : Entry tier) : Entry tier :=
  { e with socket := e.socket.close }

def announce (id : Nat) (e : Entry tier) (q : DataQueue tier) : Entry tier × DataQueue tier × List Effect :=
  if e.st.established = false ∧ e.socket.state = .established then
    let st := { e.st with established := true, connectResp := none, fromStackRx := false }
    match e.st.connectResp, e.st.fromStackRx with
    | some .waiting, true => ({ e with st }, q, [.connected])
    | some .gone, true =>
      ({ e with st := { st with toApp := st.toApp.dropReceiver } },
        sendFromDrop q (.tcpClose id),
        [.orphaned (q.trySend (.tcpClose id)).isSome])
    | _, _ => ({ e with st }, q, [])
  else
    (e, q, [])

def isRefused (e : Entry tier) : Bool :=
  !e.st.established && (e.socket.state = .closed || e.socket.state = .timeWait)

def handOver (e : Entry tier) : Entry tier × List Effect :=
  let sent := e.socket.accepts e.st.pending
  if sent = 0 then
    (e, [])
  else
    ({ st := { e.st with pending := e.st.pending.drop sent },
       socket := e.socket.sendSlice e.st.pending },
      [.handed (e.st.pending.take sent)])

def closeDrained (e : Entry tier) : Entry tier × List Effect :=
  if e.st.halfClosed ∧ e.st.pending = [] then (e.close, [.closed]) else (e, [])

def receive (e : Entry tier) : Entry tier where
  st := e.st.push e.socket.rx.contiguous
  socket := { e.socket with rx := e.socket.rx.dequeue }

-- How the delivery loop ended: nothing left or too many chunks, no room, or no receiver.
inductive Exit
  | idle
  | full
  | gone
deriving DecidableEq

def recvLoop : Nat → List AppMove → Entry tier → Entry tier × Exit × List Effect
  | 0, _, e => (e, .idle, [])
  | fuel + 1, ms, e =>
    let (st, eff) := e.st.appMove (ms.headD {})
    let e := { e with st }
    match st.toApp.tryReserve with
    | .full => (e, .full, eff)
    | .closed => (e, .gone, eff)
    | .permit =>
      if e.socket.canRecv then
        let r := recvLoop fuel ms.tail e.receive
        (r.1, r.2.1, eff ++ .delivered e.socket.rx.contiguous :: r.2.2)
      else
        (e, .idle, eff)

def closeGone (exit : Exit) (e : Entry tier) : Entry tier × List Effect :=
  if exit = .gone then (e.close, [.closed]) else (e, [])

def exchange (ms : List AppMove) (e : Entry tier) : Entry tier × List Effect :=
  let (e, handed) := e.handOver
  let (e, drained) := e.closeDrained
  let (e, exit, delivered) := e.recvLoop MAX_RECV_CHUNKS ms
  let (e, gone) := e.closeGone exit
  (e, handed ++ drained ++ delivered ++ gone)

def settle (e : Entry tier) : Option (Entry tier) × List Effect :=
  match e.socket.state with
  | .closeWait => (some e.close, [.closed])
  | .timeWait =>
    if e.st.established then (none, [.removed])
    else (some { e with st := { e.st with pending := [] } }, [])
  | .closed => if e.st.established then (none, [.removed]) else (some e, [])
  | _ => (some e, [])

def service (id : Nat) (ms : List AppMove) (e : Entry tier) (q : DataQueue tier) :
    Option (Entry tier) × DataQueue tier × List Effect :=
  let (e, q, announced) := e.announce id q
  if e.isRefused then
    (none, q, announced ++ (e.st.connectResp.map fun _ => Effect.refused).toList ++ [.discarded])
  else
    let (e, exchanged) := e.exchange ms
    let (e, settled) := e.settle
    (e, q, announced ++ exchanged ++ settled)

end Entry

def writeEntry (s : NetStack tier) (id : Nat) (e : Entry tier) : NetStack tier :=
  { s.setTcp id e.st with sockets := s.sockets.put e.st.handle (.tcp e.socket) }

-- A removed id is passed over; a missing socket is a panic.
def visitTcp (s : NetStack tier) (q : DataQueue tier) (id : Nat) (ms : List AppMove) :
    Option (NetStack tier × DataQueue tier × List Effect) :=
  match s.tcpConns id with
  | none => some (s, q, [])
  | some _ =>
    (entryOf s id).map fun e =>
      match e.service id ms q with
      | (some e', q', eff) => (writeEntry s id e', q', eff)
      | (none, q', eff) => (s.eraseTcp id e.st.handle, q', eff)

def UdpState.appMove (m : AppMove) (st : UdpState tier) : UdpState tier :=
  { st with toApp := if m.drops then st.toApp.dropReceiver else st.toApp.take m.taken }

def udpLoop : Nat → List AppMove → UdpState tier → Udp.Socket → UdpState tier × Udp.Socket
  | 0, _, st, socket => (st, socket)
  | fuel + 1, ms, st, socket =>
    let st := st.appMove (ms.headD {})
    match st.toApp.tryReserve, socket.rx with
    | .permit, d :: rx =>
      udpLoop fuel ms.tail { st with toApp := (st.toApp.trySend d).getD st.toApp } { socket with rx }
    | _, _ => (st, socket)

def writeUdp (s : NetStack tier) (id : Nat) (st : UdpState tier) (socket : Udp.Socket) : NetStack tier :=
  { s.setUdp id st with sockets := s.sockets.put st.handle (.udp socket) }

def visitUdp (s : NetStack tier) (id : Nat) (ms : List AppMove) : Option (NetStack tier) :=
  match s.udpConns id with
  | none => some s
  | some st =>
    (s.sockets.udp? st.handle).map fun socket =>
      let r := udpLoop MAX_RECV_CHUNKS ms st socket
      writeUdp s id r.1 r.2

end Netstack

end Engine
