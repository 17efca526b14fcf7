import SoildTunnel.Engine.Netstack.Run

-- One TCP connection seen on its own: its entry, its history, and the messages for it that are
-- still queued. Whatever the stack does, each connection makes one of the moves below, is serviced,
-- or is sent data by the application.
namespace Engine.Netstack

inductive Msg
  | data (bytes : Bytes)
  | close
deriving DecidableEq

def DataIn.msgFor (id : Nat) : DataIn → Option Msg
  | .tcp k data => if k = id then some (.data data) else none
  | .tcpClose k => if k = id then some .close else none
  | _ => none

@[ext]
structure View (tier : Tier) where
  entry : Option (Entry tier)
  log : Log
  inbox : List Msg

variable {tier : Tier}

-- The messages that are still to be handled, the deferred ones first.
def State.queue (s : State tier) : List DataIn :=
  s.deferred ++ s.dataIn.queue

def State.view (s : State tier) (id : Nat) : View tier where
  entry := entryOf s.stack id
  log := s.log id
  inbox := s.queue.filterMap (DataIn.msgFor id)

def Effect.closing : Effect → Option Msg
  | .orphaned true => some .close
  | _ => none

structure Entry.Fresh (e : Entry tier) : Prop where
  state : e.socket.state = .synSent
  unread : e.socket.rx.unread = []
  pending : e.st.pending = []
  established : e.st.established = false
  halfClosed : e.st.halfClosed = false
  fromStackRx : e.st.fromStackRx = true
  connectResp : e.st.connectResp.isSome
  toApp : e.st.toApp.closed = false

inductive View.Move : View tier → View tier → Prop
  | same {v} : Move v v
  | opened {e : Entry tier} : e.Fresh → Move ⟨none, {}, []⟩ ⟨some e, {}, []⟩
  | moved {e l b m socket} :
    e.socket.poll m = some socket → Move ⟨some e, l, b⟩ ⟨some { e with socket }, l.polled m, b⟩
  -- A message for the connection is taken from the queue, whole or up to the room that is left.
  | taken {e l b data} :
    Move ⟨some e, l, .data data :: b⟩
      ⟨some { e with st := { e.st with pending := e.st.pending ++ data } }, l, b⟩
  | takenPart {e l b data n} :
    Move ⟨some e, l, .data data :: b⟩
      ⟨some { e with st := { e.st with pending := e.st.pending ++ data.take n } }, l,
        .data (data.drop n) :: b⟩
  | halfClosed {e l b} :
    Move ⟨some e, l, .close :: b⟩ ⟨some { e with st := { e.st with halfClosed := true } }, l, b⟩
  | ignored {l m b} : Move ⟨none, l, m :: b⟩ ⟨none, l, b⟩
  | appMoved {e l b m} :
    Move ⟨some e, l, b⟩
      ⟨some { e with st := (e.st.appMove m).1 }, (e.st.appMove m).2.foldl Log.record l, b⟩
  | cancelled {e l b} :
    e.st.connectResp.isSome →
    Move ⟨some e, l, b⟩ ⟨some { e with st := { e.st with connectResp := some .gone } }, l, b⟩
  | closeSent {e l b} : l.hasSender → Move ⟨e, l, b⟩ ⟨e, { l with closeSent := true }, b ++ [.close]⟩
  -- The destructor's closing message may find no room.
  | senderDropped {e l b queued} :
    l.hasSender →
    Move ⟨e, l, b⟩ ⟨e, { l with hasSender := false, closeSent := l.closeSent || queued },
      b ++ if queued then [.close] else []⟩

def View.sent (v : View tier) (data : Bytes) : View tier :=
  ⟨v.entry, v.log.sent data, v.inbox ++ [.data data]⟩

def View.serviced (e : Entry tier) (l : Log) (b : List Msg) (id : Nat) (ms : List AppMove)
    (q : DataQueue tier) : View tier :=
  let (e, _, eff) := e.service id ms q
  ⟨e, eff.foldl Log.record l, b ++ eff.filterMap Effect.closing⟩

def State.Sends (s : State tier) (l : Label) (id : Nat) (data : Bytes) : Prop :=
  l = .app (.send id data) ∧ (s.log id).hasSender

def State.Visits (s : State tier) (l : Label) (id : Nat) (ms : List AppMove) (e : Entry tier) : Prop :=
  l = .visitTcp ms ∧ (∃ ids, s.phase = .serviceTcp (id :: ids)) ∧ entryOf s.stack id = some e

end Engine.Netstack
