import SoildTunnel.Engine.Net
import SoildTunnel.Lib.Slab

-- The sockets of the TCP/IP library as the stack sees them: the state of a TCP socket, what the
-- library's calls do to it, and what a poll may do to it.
namespace Engine.Netstack

inductive Tcp.State
  | closed
  | listen
  | synSent
  | synReceived
  | established
  | finWait1
  | finWait2
  | closeWait
  | closing
  | lastAck
  | timeWait
deriving DecidableEq

-- A ring buffer: the unread bytes, of which the first lies at `readAt`.
structure RingBuffer where
  capacity : Nat
  readAt : Nat
  unread : Bytes
  readAt_lt : readAt < capacity
  length_le : unread.length ≤ capacity
deriving DecidableEq

namespace RingBuffer

-- Only the bytes up to the end of the storage are handed out at once.
def contiguous (b : RingBuffer) : Bytes :=
  b.unread.take (b.capacity - b.readAt)

def dequeue (b : RingBuffer) : RingBuffer where
  capacity := b.capacity
  readAt := (b.readAt + b.contiguous.length) % b.capacity
  unread := b.unread.drop (b.capacity - b.readAt)
  readAt_lt := Nat.mod_lt _ (Nat.zero_lt_of_lt b.readAt_lt)
  length_le := by have := b.length_le; simp; omega

def enqueue (b : RingBuffer) (data : Bytes) : Option RingBuffer :=
  if h : b.unread.length + data.length ≤ b.capacity then
    some { b with unread := b.unread ++ data, length_le := by simpa using h }
  else
    none

end RingBuffer

structure Tcp.Socket where
  state : Tcp.State
  localPort : Nat
  remote : SocketAddr
  -- The free space of the send buffer.
  txRoom : Nat
  rx : RingBuffer
deriving DecidableEq

namespace Tcp.Socket

def maySend (s : Tcp.Socket) : Bool :=
  s.state = .established || s.state = .closeWait

def canSend (s : Tcp.Socket) : Bool :=
  s.maySend && 0 < s.txRoom

def canRecv (s : Tcp.Socket) : Bool :=
  !s.rx.unread.isEmpty

def accepts (s : Tcp.Socket) (data : Bytes) : Nat :=
  if s.canSend then min s.txRoom data.length else 0

def sendSlice (s : Tcp.Socket) (data : Bytes) : Tcp.Socket :=
  { s with txRoom := s.txRoom - s.accepts data }

def close (s : Tcp.Socket) : Tcp.Socket :=
  match s.state with
  | .listen | .synSent => { s with state := .closed }
  | .synReceived | .established => { s with state := .finWait1 }
  | .closeWait => { s with state := .lastAck }
  | _ => s

end Tcp.Socket

structure Udp.Socket where
  localPort : Nat
  rx : List (SocketAddr × Bytes)
deriving DecidableEq

inductive Socket
  | tcp (socket : Tcp.Socket)
  | udp (socket : Udp.Socket)
deriving DecidableEq

abbrev SocketSet := Slab Socket

-- What a socket is told apart by: its local port and, of a TCP socket, the remote endpoint.
def Socket.binding : Socket → Option SocketAddr × Nat
  | .tcp socket => (some socket.remote, socket.localPort)
  | .udp socket => (none, socket.localPort)

def SocketSet.tcp? (ss : SocketSet) (h : Nat) : Option Tcp.Socket :=
  match ss.get? h with
  | some (.tcp socket) => some socket
  | _ => none

def SocketSet.udp? (ss : SocketSet) (h : Nat) : Option Udp.Socket :=
  match ss.get? h with
  | some (.udp socket) => some socket
  | _ => none

-- What one segment or timer of a poll does to a TCP socket.
inductive Tcp.Move
  | syn
  | synAck
  | ack
  | fin
  | ackOfFin
  | expire
  -- A reset, or a timeout.
  | abort
  | data (bytes : Bytes)
  -- Sent bytes were acknowledged and leave the send buffer.
  | freed (count : Nat)
deriving DecidableEq

def Tcp.State.next : Tcp.State → Tcp.Move → Option Tcp.State
  | .synSent, .synAck => some .established
  | .synSent, .syn => some .synReceived
  | .synReceived, .ack => some .established
  | .synReceived, .fin => some .closeWait
  | .established, .fin => some .closeWait
  | .finWait1, .fin => some .closing
  | .finWait2, .fin => some .timeWait
  | .finWait1, .ackOfFin => some .finWait2
  | .closing, .ackOfFin => some .timeWait
  | .lastAck, .ackOfFin => some .closed
  | .timeWait, .expire => some .closed
  | _, _ => none

def Tcp.State.receives : Tcp.State → Bool
  | .established | .finWait1 | .finWait2 => true
  | _ => false

def Tcp.Socket.poll (s : Tcp.Socket) : Tcp.Move → Option Tcp.Socket
  | .abort => if s.state = .closed then none else some { s with state := .closed }
  | .data bytes =>
    if s.state.receives then (s.rx.enqueue bytes).map fun rx => { s with rx } else none
  | .freed count => some { s with txRoom := s.txRoom + count }
  | m => (s.state.next m).map fun state => { s with state }

end Engine.Netstack
