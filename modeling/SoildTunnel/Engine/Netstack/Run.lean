import SoildTunnel.Engine.Netstack.Stack
import SoildTunnel.Lib.Lts

-- The event loop of the stack, with the application at the other end of its channels.
namespace Engine.Netstack

-- Where the event loop is: a poll, then a round for each connection, then the deferred messages,
-- then one event.
inductive Phase
  | poll
  | serviceTcp (ids : List Nat)
  | serviceUdp (ids : List Nat)
  | drain
  | select
  | ingest
deriving DecidableEq

-- The history of a connection. The code keeps none of it: these are what the properties of whole
-- runs speak about.
structure Log where
  -- What the application sent before its closing message.
  accepted : Bytes := []
  closeSent : Bool := false
  -- Whether the application has been given the sending end and still has it.
  hasSender : Bool := false
  receiverDropped : Bool := false
  -- What was handed to the socket, and whether the stack has closed or removed it.
  handed : Bytes := []
  closed : Bool := false
  removed : Bool := false
  discarded : Bool := false
  -- Whether the library gave the connection up because of a reset or a timeout.
  aborted : Bool := false
  -- What the library put into the receive buffer, and what of it went to the application.
  placed : Bytes := []
  delivered : Bytes := []
deriving DecidableEq

namespace Log

def record (l : Log) : Effect → Log
  | .connected => { l with hasSender := true }
  | .orphaned queued => { l with receiverDropped := true, closeSent := l.closeSent || queued }
  | .refused => l
  | .handed data => { l with handed := l.handed ++ data }
  | .closed => { l with closed := true }
  | .delivered chunk => { l with delivered := l.delivered ++ chunk }
  | .receiverDropped => { l with receiverDropped := true }
  | .removed => { l with removed := true }
  | .discarded => { l with discarded := true }

def polled (l : Log) : Tcp.Move → Log
  | .abort => { l with aborted := true }
  | .data bytes => { l with placed := l.placed ++ bytes }
  | _ => l

-- Bytes sent after the closing message are not waited for.
def sent (l : Log) (data : Bytes) : Log :=
  if l.closeSent then l else { l with accepted := l.accepted ++ data }

end Log

structure State (tier : Tier) where
  stack : NetStack tier
  dataIn : DataQueue tier := .empty
  deferred : List DataIn := []
  phase : Phase := .poll
  log : Nat → Log := fun _ => {}
  -- Whether the owner of a UDP connection still has its sending end.
  udpOwned : Nat → Bool := fun _ => false
  -- How many ports were given out, and which of them (from 0) the socket of a handle got.
  allocated : Nat := 0
  serial : Nat → Nat := fun _ => 0

inductive AppEvent
  | send (id : Nat) (data : Bytes)
  | close (id : Nat)
  | dropSender (id : Nat)
  | recv (id : Nat) (move : AppMove)
  -- The open request is given up before it is answered.
  | cancelOpen (id : Nat)
  | udpSend (id : Nat) (dst : SocketAddr) (data : Bytes)
  | udpClose (id : Nat)
  | udpDropSender (id : Nat)
  | udpRecv (id : Nat) (move : AppMove)

inductive Label
  | tcpMove (id : Nat) (m : Tcp.Move)
  | udpArrives (id : Nat) (src : SocketAddr) (data : Bytes)
  -- The poll ends; the ids are in the order in which the map yields them.
  | endPoll (ids : List Nat)
  | visitTcp (ms : List AppMove)
  | endTcp (ids : List Nat)
  | visitUdp (ms : List AppMove)
  | endUdp
  | drain
  -- The branches of the select: packets arrive, a command, a message, or the delay is over.
  | inbound
  | cmd (c : Cmd) (connects : Bool)
  | data
  | timer
  | ingest
  | app (event : AppEvent)

variable {tier : Tier}

def State.init (iface : Interface) : State tier where
  stack := {
    iface
    sockets := {}
    tcpConns := fun _ => none
    udpConns := fun _ => none
    nextId := 1
    nextPort := 49152
  }

def Keys {α : Type} (ids : List Nat) (bound : Nat) (m : Nat → Option α) : Prop :=
  ids.Perm ((List.range bound).filter fun id => (m id).isSome)

instance {α : Type} (ids : List Nat) (bound : Nat) (m : Nat → Option α) : Decidable (Keys ids bound m) :=
  inferInstanceAs (Decidable (List.Perm _ _))

namespace State

def setLog (s : State tier) (id : Nat) (l : Log) : State tier :=
  { s with log := Function.update s.log id l }

def record (s : State tier) (id : Nat) (eff : List Effect) : State tier :=
  s.setLog id (eff.foldl Log.record (s.log id))

-- The application puts a message into the queue; it waits while the queue is full.
def enqueue (s : State tier) (d : DataIn) : Option (State tier) :=
  (s.dataIn.trySend d).map fun dataIn => { s with dataIn }

def appStep (s : State tier) : AppEvent → Option (State tier)
  | .send id data =>
    if (s.log id).hasSender then
      (s.enqueue (.tcp id data)).map (·.setLog id ((s.log id).sent data))
    else
      none
  | .close id =>
    if (s.log id).hasSender then
      (s.enqueue (.tcpClose id)).map (·.setLog id { s.log id with closeSent := true })
    else
      none
  | .dropSender id =>
    if (s.log id).hasSender then
      some ({ s with dataIn := sendFromDrop s.dataIn (.tcpClose id) }.setLog id
        { s.log id with
          hasSender := false
          closeSent := (s.log id).closeSent || (s.dataIn.trySend (.tcpClose id)).isSome })
    else
      none
  | .recv id move =>
    (s.stack.tcpConns id).map fun st =>
      let (st, eff) := st.appMove move
      { s with stack := s.stack.setTcp id st }.record id eff
  | .cancelOpen id =>
    match s.stack.tcpConns id with
    | some st =>
      if st.connectResp.isSome then
        some { s with stack := s.stack.setTcp id { st with connectResp := some .gone } }
      else
        none
    | none => none
  | .udpSend id dst data => if s.udpOwned id then s.enqueue (.udp id dst data) else none
  | .udpClose id => if s.udpOwned id then s.enqueue (.udpClose id) else none
  | .udpDropSender id =>
    if s.udpOwned id then
      some { s with
        dataIn := sendFromDrop s.dataIn (.udpClose id)
        udpOwned := Function.update s.udpOwned id false }
    else
      none
  | .udpRecv id move =>
    (s.stack.udpConns id).map fun st => { s with stack := s.stack.setUdp id (st.appMove move) }

-- A command, with the history it makes: a slot that it fills belongs to the port it took.
def command (s : State tier) (c : Cmd) (connects : Bool) : Option (State tier) :=
  (handleCmd s.stack s.dataIn connects c).map fun (stack, dataIn) =>
    { s with
      stack
      dataIn
      phase := .poll
      udpOwned :=
        if c = .openUdp .waiting then Function.update s.udpOwned s.stack.nextId true else s.udpOwned
      allocated := s.allocated + c.ports
      serial := fun h =>
        if s.stack.sockets.get? h = none ∧ stack.sockets.get? h ≠ none then s.allocated
        else s.serial h }

def drainOne (s : State tier) : Option (State tier) :=
  match s.deferred with
  | [] => some { s with phase := .select }
  | d :: ds =>
    (tryHandleData s.stack d).map fun
      | (stack, none) => { s with stack, deferred := ds }
      | (stack, some back) => { s with stack, deferred := back :: ds, phase := .select }

-- One message of the queue, as the loops of the select's data branch take them: they stop when a
-- message must be deferred or the queue is empty.
def ingestOne (s : State tier) : Option (State tier) :=
  if s.deferred = [] then
    match s.dataIn.recv with
    | none => some { s with phase := .poll }
    | some (d, dataIn) =>
      (tryHandleData s.stack d).map fun (stack, back) =>
        { s with stack, dataIn, deferred := back.toList }
  else
    some { s with phase := .poll }

def step (s : State tier) : Label → Option (State tier)
  | .app event => s.appStep event
  | .tcpMove id m =>
    if s.phase = .poll then
      (entryOf s.stack id).bind fun e => (e.socket.poll m).map fun socket =>
        { s with stack := writeEntry s.stack id { e with socket } }.setLog id ((s.log id).polled m)
    else
      none
  | .udpArrives id src data =>
    if s.phase = .poll then
      (s.stack.udpConns id).bind fun st => (s.stack.sockets.udp? st.handle).map fun socket =>
        { s with stack := writeUdp s.stack id st { socket with rx := socket.rx ++ [(src, data)] } }
    else
      none
  | .endPoll ids =>
    if s.phase = .poll ∧ Keys ids s.stack.nextId s.stack.tcpConns then
      some { s with phase := .serviceTcp ids }
    else
      none
  | .visitTcp ms =>
    match s.phase with
    | .serviceTcp (id :: ids) =>
      (visitTcp s.stack s.dataIn id ms).map fun (stack, dataIn, eff) =>
        { s with stack, dataIn, phase := .serviceTcp ids }.record id eff
    | _ => none
  | .endTcp ids =>
    if s.phase = .serviceTcp [] ∧ Keys ids s.stack.nextId s.stack.udpConns then
      some { s with phase := .serviceUdp ids }
    else
      none
  | .visitUdp ms =>
    match s.phase with
    | .serviceUdp (id :: ids) =>
      (visitUdp s.stack id ms).map fun stack => { s with stack, phase := .serviceUdp ids }
    | _ => none
  | .endUdp => if s.phase = .serviceUdp [] then some { s with phase := .drain } else none
  | .drain => if s.phase = .drain then s.drainOne else none
  | .inbound | .timer => if s.phase = .select then some { s with phase := .poll } else none
  | .cmd c connects => if s.phase = .select then s.command c connects else none
  | .data =>
    if s.phase = .select ∧ s.deferred = [] ∧ s.dataIn.queue ≠ [] then
      some { s with phase := .ingest }
    else
      none
  | .ingest => if s.phase = .ingest then s.ingestOne else none

end State

end Engine.Netstack
