import SoildTunnel.Engine.Netstack.Theorems.Connection

-- One round of `service_tcp`: the delivery loop, which runs the receive buffer against the
-- application's channel, and the end of the round.
namespace Engine.Netstack

open List Option

variable {tier : Tier}

-- What the channel answers when the chunks are offered to it one after the other and the
-- application moves in between.
def TcpState.answer : List Bytes → List AppMove → TcpState tier → Mpsc.Reserve
  | [], _, _ => .permit
  | chunk :: chunks, ms, st =>
    let st := (st.appMove (ms.headD {})).1
    match st.toApp.tryReserve with
    | .permit => answer chunks ms.tail (st.push chunk)
    | r => r

variable {m : Tcp.Move}

namespace Tcp

def State.isEnded (st : Tcp.State) : Bool :=
  st = .closed || st = .timeWait

namespace Socket

theorem close_rx (socket : Tcp.Socket) : socket.close.rx = socket.rx := by
  unfold close
  split <;> rfl

theorem close_isEnded {socket : Tcp.Socket} (h : socket.state ≠ .synSent ∧ socket.state ≠ .listen) :
    socket.close.state.isEnded = socket.state.isEnded := by
  unfold close
  split <;> simp_all [Tcp.State.isEnded]

theorem close_state_ne (socket : Tcp.Socket) : socket.close.state ≠ .synSent ∧ socket.close.state ≠ .listen := by
  unfold close
  split <;> simp_all

end Socket

theorem State.next_ne {st st' : Tcp.State} (h : st.next m = some st') : st' ≠ .synSent ∧ st' ≠ .listen := by
  unfold next at h
  split at h <;> cases h <;> simp

end Tcp

theorem Log.polled_of_next {l : Log} {st st' : Tcp.State} (h : st.next m = some st') : l.polled m = l := by
  unfold Tcp.State.next at h
  split at h <;> first | rfl | cases h

namespace RingBuffer

def chunks (b : RingBuffer) : List Bytes :=
  if b.unread = [] then []
  else if b.unread.length ≤ b.capacity - b.readAt then [b.unread]
  else [b.contiguous, b.dequeue.unread]

variable {b : RingBuffer}

theorem chunks_eq_nil (h : b.unread = []) : b.chunks = [] := by
  simp [chunks, h]

theorem contiguous_append : b.contiguous ++ b.dequeue.unread = b.unread :=
  take_append_drop ..

theorem chunks_dequeue (h : b.unread ≠ []) : b.chunks = b.contiguous :: b.dequeue.chunks := by
  have hr := b.readAt_lt
  have hl := b.length_le
  by_cases hc : b.unread.length ≤ b.capacity - b.readAt
  case pos =>
    have hd : b.dequeue.unread = [] := drop_eq_nil_of_le hc
    rw [chunks_eq_nil hd]
    simp [chunks, h, hc, contiguous, take_of_length_le hc]
  case neg =>
    have hcl : b.contiguous.length = b.capacity - b.readAt := by simp [contiguous]; omega
    have hat : b.dequeue.readAt = 0 := by
      simp only [dequeue, hcl]
      rw [Nat.add_sub_cancel' (Nat.le_of_lt hr), Nat.mod_self]
    have hne : b.dequeue.unread ≠ [] := by simp [dequeue]; omega
    have hle : b.dequeue.unread.length ≤ b.dequeue.capacity - b.dequeue.readAt := by
      rw [hat]
      exact b.dequeue.length_le
    simp [chunks, h, hc, hne, hle]

theorem enqueue_unread {data : Bytes} {b' : RingBuffer} (h : b.enqueue data = some b') :
    b'.unread = b.unread ++ data := by
  unfold enqueue at h
  split at h
  case isTrue => cases h; rfl
  case isFalse => cases h

theorem length_chunks_lt : b.chunks.length < MAX_RECV_CHUNKS := by
  unfold chunks MAX_RECV_CHUNKS
  split
  case isTrue => simp
  case isFalse => split <;> simp

end RingBuffer

variable {ms : List AppMove}

namespace Entry

variable {e : Entry tier} {fuel : Nat}

-- The loop gets the answers that the channel gives to the chunks of the receive buffer, and asks
-- once more when there are no more chunks.
theorem recvLoop_exit (h : e.socket.rx.chunks.length < fuel) :
    (e.recvLoop fuel ms).2.1 = .gone ↔ e.st.answer (e.socket.rx.chunks ++ [[]]) ms = .closed := by
  induction fuel generalizing ms e
  case zero => cases h
  case succ fuel hi =>
    by_cases hu : e.socket.rx.unread = []
    case pos =>
      simp only [recvLoop, RingBuffer.chunks_eq_nil hu, nil_append, TcpState.answer]
      split <;> simp_all [Tcp.Socket.canRecv]
    case neg =>
      have hc : e.socket.canRecv = true := by simp [Tcp.Socket.canRecv, hu]
      rw [RingBuffer.chunks_dequeue hu] at h ⊢
      simp only [recvLoop, cons_append, TcpState.answer]
      split
      case h_1 hr => simp only [hr, reduceCtorEq]
      case h_2 hr => simp only [hr]
      case h_3 hr =>
        simp only [hr, hc, if_true]
        exact hi (Nat.lt_of_succ_lt_succ h)

theorem recvLoop_stuck
    (h : e.socket.rx.chunks.length < fuel) :
    ((e.recvLoop fuel ms).1.socket.rx.unread ≠ [] ∧ (e.recvLoop fuel ms).1.st.toApp.closed = false) ↔
      e.st.answer e.socket.rx.chunks ms = .full := by
  induction fuel generalizing ms e
  case zero => cases h
  case succ fuel hi =>
    by_cases hu : e.socket.rx.unread = []
    case pos =>
      have hd : (e.recvLoop (fuel + 1) ms).1.socket.rx.unread = [] := by
        simp only [recvLoop]
        split <;> simp_all [Tcp.Socket.canRecv]
      simp [hd, RingBuffer.chunks_eq_nil hu, TcpState.answer]
    case neg =>
      have hc : e.socket.canRecv = true := by simp [Tcp.Socket.canRecv, hu]
      rw [RingBuffer.chunks_dequeue hu] at h ⊢
      simp only [recvLoop, TcpState.answer]
      split
      case h_1 hr =>
        simp only [hr, iff_true]
        exact ⟨hu, Mpsc.closed_of_full hr⟩
      case h_2 hr => simp only [hr, Mpsc.closed_of_closed hr, reduceCtorEq, and_false]
      case h_3 hr =>
        simp only [hr, hc, if_true]
        exact hi (Nat.lt_of_succ_lt_succ h)

-- The loop records deliveries and the end of the receiver, and nothing else.
structure Delivers (e e' : Entry tier) (l l' : Log) : Prop where
  st : ∃ toApp, e'.st = { e.st with toApp }
  socket : ∃ rx, e'.socket = { e.socket with rx }
  log : ∃ delivered receiverDropped, l' = { l with delivered, receiverDropped }
  delivered : l'.delivered ++ e'.socket.rx.unread = l.delivered ++ e.socket.rx.unread
  dropped : (l.receiverDropped ↔ e.st.toApp.closed) → (l'.receiverDropped ↔ e'.st.toApp.closed)

namespace Delivers

variable {e e₁ e₂ : Entry tier} {l l₁ l₂ : Log}

theorem refl : Delivers e e l l :=
  ⟨⟨_, rfl⟩, ⟨_, rfl⟩, ⟨_, _, rfl⟩, rfl, id⟩

theorem trans (h₁ : Delivers e e₁ l l₁) (h₂ : Delivers e₁ e₂ l₁ l₂) : Delivers e e₂ l l₂ where
  st := by
    have ⟨_, hs₁⟩ := h₁.st
    have ⟨_, hs₂⟩ := h₂.st
    exact ⟨_, hs₂.trans (by rw [hs₁])⟩
  socket := by
    have ⟨_, hs₁⟩ := h₁.socket
    have ⟨_, hs₂⟩ := h₂.socket
    exact ⟨_, hs₂.trans (by rw [hs₁])⟩
  log := by
    have ⟨_, _, hl₁⟩ := h₁.log
    have ⟨_, _, hl₂⟩ := h₂.log
    exact ⟨_, _, hl₂.trans (by rw [hl₁])⟩
  delivered := h₂.delivered.trans h₁.delivered
  dropped h := h₂.dropped (h₁.dropped h)

end Delivers

theorem appMove_delivers (m : AppMove) (e : Entry tier) (l : Log) :
    Delivers e { e with st := (e.st.appMove m).1 } l ((e.st.appMove m).2.foldl Log.record l) := by
  unfold TcpState.appMove
  split
  case isTrue => exact .refl
  case isFalse =>
    split
    case isTrue =>
      exact ⟨⟨_, rfl⟩, ⟨_, rfl⟩, ⟨_, _, rfl⟩, rfl, fun _ => by simp [Log.record, Mpsc.dropReceiver]⟩
    case isFalse => exact ⟨⟨_, rfl⟩, ⟨_, rfl⟩, ⟨_, _, rfl⟩, rfl, id⟩

theorem receive_delivers (e : Entry tier) (l : Log) :
    Delivers e e.receive l (l.record (.delivered e.socket.rx.contiguous)) where
  st := ⟨_, rfl⟩
  socket := ⟨_, rfl⟩
  log := ⟨_, _, rfl⟩
  delivered := by
    simp only [receive, Log.record, append_assoc, RingBuffer.contiguous_append]
  dropped h := by simpa [receive, TcpState.push, Log.record] using h

theorem recvLoop_delivers (fuel : Nat) (ms : List AppMove) (e : Entry tier) (l : Log) :
    Delivers e (e.recvLoop fuel ms).1 l ((e.recvLoop fuel ms).2.2.foldl Log.record l) := by
  induction fuel generalizing ms e l
  case zero => exact .refl
  case succ fuel hi =>
    have hm := appMove_delivers (ms.headD {}) e l
    simp only [recvLoop]
    split
    case h_1 => exact hm
    case h_2 => exact hm
    case h_3 =>
      split
      case isTrue =>
        simp only [foldl_append, foldl_cons]
        exact hm.trans <| (receive_delivers _ _).trans (hi _ _ _)
      case isFalse => exact hm

theorem settle_cases (e : Entry tier) : (e.socket.state = .closeWait ∧ e.settle = (some e.close, [.closed])) ∨
    (e.socket.state.isEnded ∧ e.st.established ∧ e.settle = (none, [.removed])) ∨
    (e.socket.state = .timeWait ∧ e.st.established = false ∧
      e.settle = (some { e with st := { e.st with pending := [] } }, [])) ∨
    (e.socket.state ≠ .closeWait ∧ ¬ (e.socket.state.isEnded ∧ e.st.established) ∧
      e.settle = (some e, [])) := by
  unfold settle
  cases he : e.st.established <;> cases hs : e.socket.state <;> simp [Tcp.State.isEnded]

theorem service_established (h : e.st.established) (id : Nat) (ms : List AppMove) (q : DataQueue tier) :
    e.service id ms q =
      ((e.exchange ms).1.settle.1, q, (e.exchange ms).2 ++ (e.exchange ms).1.settle.2) := by
  simp [service, announce, isRefused, h]

-- How far a stage of the exchange gets in the life of a connection: it never ends one.
structure Lives (e e' : Entry tier) : Prop where
  established : e'.st.established = e.st.established
  halfClosed : e'.st.halfClosed = e.st.halfClosed
  isEnded : e.socket.state ≠ .synSent ∧ e.socket.state ≠ .listen →
    e'.socket.state.isEnded = e.socket.state.isEnded ∧
      e'.socket.state ≠ .synSent ∧ e'.socket.state ≠ .listen

namespace Lives

variable {e e₁ e₂ : Entry tier}

theorem of_state (hs : e₁.socket.state = e.socket.state) (he : e₁.st.established = e.st.established)
    (hh : e₁.st.halfClosed = e.st.halfClosed) : Lives e e₁ :=
  ⟨he, hh, fun h => ⟨by rw [hs], by rw [hs]; exact h⟩⟩

theorem trans (h₁ : Lives e e₁) (h₂ : Lives e₁ e₂) : Lives e e₂ where
  established := h₂.established.trans h₁.established
  halfClosed := h₂.halfClosed.trans h₁.halfClosed
  isEnded h := by
    have ⟨he₁, hn⟩ := h₁.isEnded h
    have ⟨he₂, hn⟩ := h₂.isEnded hn
    exact ⟨he₂.trans he₁, hn⟩

theorem close : Lives e e.close :=
  ⟨rfl, rfl, fun h => ⟨Tcp.Socket.close_isEnded h, e.socket.close_state_ne⟩⟩

theorem handOver : Lives e e.handOver.1 := by
  simp only [Entry.handOver]
  split
  case isTrue => exact of_state rfl rfl rfl
  case isFalse => exact of_state rfl rfl rfl

theorem closeDrained : Lives e e.closeDrained.1 := by
  unfold Entry.closeDrained
  split
  case isTrue => exact close
  case isFalse => exact of_state rfl rfl rfl

theorem recvLoop (fuel : Nat) (ms : List AppMove) : Lives e (e.recvLoop fuel ms).1 := by
  have d := recvLoop_delivers fuel ms e {}
  have ⟨_, hst⟩ := d.st
  have ⟨_, hs⟩ := d.socket
  exact of_state (by rw [hs]) (by rw [hst]) (by rw [hst])

theorem closeGone (exit : Exit) : Lives e (e.closeGone exit).1 := by
  unfold Entry.closeGone
  split
  case isTrue => exact close
  case isFalse => exact of_state rfl rfl rfl

theorem exchange (ms : List AppMove) : Lives e (e.exchange ms).1 := by
  simp only [Entry.exchange]
  exact handOver.trans <| closeDrained.trans <| (recvLoop _ _).trans <| closeGone _

end Lives

theorem close_eq (e : Entry tier) : e.close.st = e.st ∧ e.close.socket.rx = e.socket.rx :=
  ⟨rfl, e.socket.close_rx⟩

theorem closeDrained_eq (e : Entry tier) : e.closeDrained.1.st = e.st ∧ e.closeDrained.1.socket.rx = e.socket.rx := by
  unfold closeDrained
  split
  case isTrue => exact e.close_eq
  case isFalse => exact ⟨rfl, rfl⟩

theorem closeGone_eq (exit : Exit) (e : Entry tier) :
    (e.closeGone exit).1.st = e.st ∧ (e.closeGone exit).1.socket.rx = e.socket.rx := by
  unfold closeGone
  split
  case isTrue => exact e.close_eq
  case isFalse => exact ⟨rfl, rfl⟩

theorem handOver_eq (e : Entry tier) :
    e.handOver.1.st = { e.st with pending := e.st.pending.drop (e.socket.accepts e.st.pending) } ∧
      e.handOver.1.socket.rx = e.socket.rx := by
  simp only [handOver]
  split
  case isTrue h => simp [h]
  case isFalse => exact ⟨rfl, rfl⟩

theorem answer_pending (chunks : List Bytes) (ms : List AppMove) (st : TcpState tier) (p : Bytes) :
    TcpState.answer chunks ms { st with pending := p } = st.answer chunks ms := by
  induction chunks generalizing ms st
  case nil => rfl
  case cons chunk chunks hi =>
    have hm (m : AppMove) : (TcpState.appMove m { st with pending := p }).1 =
        { (st.appMove m).1 with pending := p } := by
      unfold TcpState.appMove
      split
      case isTrue => rfl
      case isFalse => split <;> rfl
    simp only [TcpState.answer, hm]
    split
    case h_1 => exact hi _ (TcpState.push chunk _)
    case h_2 => rfl

theorem exchange_recvLoop (ms : List AppMove) (e : Entry tier) :
    ∃ m : Entry tier, (∃ pending, m.st = { e.st with pending }) ∧ m.socket.rx = e.socket.rx ∧
      (e.exchange ms).1.st = (m.recvLoop MAX_RECV_CHUNKS ms).1.st ∧
      (e.exchange ms).1.socket.rx = (m.recvLoop MAX_RECV_CHUNKS ms).1.socket.rx := by
  refine ⟨e.handOver.1.closeDrained.1,
    ⟨e.st.pending.drop (e.socket.accepts e.st.pending), ?_⟩, ?_, ?_, ?_⟩
  · rw [(closeDrained_eq _).left, e.handOver_eq.left]
  · rw [(closeDrained_eq _).right, e.handOver_eq.right]
  · exact (closeGone_eq _ _).left
  · exact (closeGone_eq _ _).right

theorem exchange_stuck (ms : List AppMove) (e : Entry tier) :
    ((e.exchange ms).1.socket.rx.unread ≠ [] ∧ (e.exchange ms).1.st.toApp.closed = false) ↔
      e.st.answer e.socket.rx.chunks ms = .full := by
  have ⟨m, ⟨_, hst⟩, hrx, hs, hr⟩ := exchange_recvLoop ms e
  rw [hs, hr, recvLoop_stuck RingBuffer.length_chunks_lt, hrx, hst, answer_pending]

-- All that is pending went out and nothing more will come.
def Drains (e : Entry tier) : Prop :=
  e.st.halfClosed ∧ e.st.pending.drop (e.socket.accepts e.st.pending) = []

def LosesReceiver (e : Entry tier) (ms : List AppMove) : Prop :=
  e.st.answer (e.socket.rx.chunks ++ [[]]) ms = .closed

instance (e : Entry tier) : Decidable e.Drains := inferInstanceAs (Decidable (_ ∧ _))

instance (e : Entry tier) (ms : List AppMove) : Decidable (e.LosesReceiver ms) :=
  inferInstanceAs (Decidable (_ = _))

theorem handOver_log (e : Entry tier) (l : Log) : e.handOver.2.foldl Log.record l =
      { l with handed := l.handed ++ e.st.pending.take (e.socket.accepts e.st.pending) } := by
  simp only [handOver]
  split
  case isTrue h => simp [h]
  case isFalse => rfl

theorem closeDrained_log (e : Entry tier) (l : Log) : e.closeDrained.2.foldl Log.record l =
      { l with closed := l.closed || decide (e.st.halfClosed ∧ e.st.pending = []) } := by
  unfold closeDrained
  split
  case isTrue h => simp [Log.record, h]
  case isFalse h => rw [decide_eq_false h, Bool.or_false]; rfl

theorem closeGone_log (exit : Exit) (e : Entry tier) (l : Log) : (e.closeGone exit).2.foldl Log.record l =
      { l with closed := l.closed || decide (exit = .gone) } := by
  unfold closeGone
  split
  case isTrue h => simp [Log.record, h]
  case isFalse h => simp [h]

theorem closeDrained_iff (e : Entry tier) :
    (e.handOver.1.st.halfClosed ∧ e.handOver.1.st.pending = []) ↔ e.Drains := by
  rw [e.handOver_eq.left]
  rfl

theorem recvLoop_exit_iff (ms : List AppMove) (e : Entry tier) :
    (e.handOver.1.closeDrained.1.recvLoop MAX_RECV_CHUNKS ms).2.1 = .gone ↔ e.LosesReceiver ms := by
  rw [recvLoop_exit RingBuffer.length_chunks_lt, (closeDrained_eq _).left, (closeDrained_eq _).right,
    e.handOver_eq.left, e.handOver_eq.right, answer_pending]
  rfl

-- What the exchange does to the history: it hands over what fits, and closes the socket when all is
-- handed over or the receiver is gone.
theorem exchange_log (ms : List AppMove) (e : Entry tier) (l : Log) :
    ∃ delivered receiverDropped, (e.exchange ms).2.foldl Log.record l =
      { l with
        handed := l.handed ++ e.st.pending.take (e.socket.accepts e.st.pending)
        closed := l.closed || decide e.Drains || decide (e.LosesReceiver ms)
        delivered
        receiverDropped } := by
  simp only [exchange, foldl_append, handOver_log, closeDrained_log, closeDrained_iff,
    closeGone_log, recvLoop_exit_iff]
  obtain ⟨delivered, dropped, hl⟩ := (recvLoop_delivers MAX_RECV_CHUNKS ms e.handOver.1.closeDrained.1
    { l with
      handed := l.handed ++ e.st.pending.take (e.socket.accepts e.st.pending)
      closed := l.closed || decide e.Drains }).log
  exact ⟨delivered, dropped, by rw [hl]⟩

theorem exchange_state (hd : ¬ e.Drains)
    (hg : ¬ e.LosesReceiver ms) : (e.exchange ms).1.socket.state = e.socket.state := by
  have hh : e.handOver.1.socket.state = e.socket.state := by
    simp only [handOver]
    split <;> rfl
  have hc : e.handOver.1.closeDrained.1 = e.handOver.1 := by
    unfold closeDrained
    rw [if_neg (mt e.closeDrained_iff.mp hd)]
  have hr := mt (recvLoop_exit_iff ms e).mp hg
  obtain ⟨_, hs⟩ := (recvLoop_delivers MAX_RECV_CHUNKS ms e.handOver.1.closeDrained.1 {}).socket
  simp only [exchange, closeGone, if_neg hr, hs]
  rw [hc, hh]

theorem settle_log (e : Entry tier) (l : Log) : e.settle.2.foldl Log.record l =
      { l with
        closed := l.closed || decide (e.socket.state = .closeWait)
        removed := l.removed || decide (e.socket.state.isEnded ∧ e.st.established) } := by
  obtain ⟨hw, hs⟩ | ⟨hw, he, hs⟩ | ⟨hw, he, hs⟩ | ⟨hw, he, hs⟩ := e.settle_cases <;> rw [hs]
  · simp [Log.record, hw, Tcp.State.isEnded]
  · have hc : e.socket.state ≠ .closeWait := by
      intro hc
      simp [hc, Tcp.State.isEnded] at hw
    simp [Log.record, hw, he, hc]
  · simp [hw, he]
  · simp [hw, he]

end Entry

def State.single (e : Entry .low) (l : Log) (phase : Phase) : State .low where
  stack := {
    iface := {}
    sockets := ⟨[some (.tcp e.socket)]⟩
    tcpConns := Function.update (fun _ => none) 1 (some e.st)
    udpConns := fun _ => none
    nextId := 2
    nextPort := 49153
  }
  phase := phase
  log := Function.update (fun _ => {}) 1 l
  allocated := 1

namespace State

variable {e e' : Entry .low} {l : Log}

theorem entryOf_single (h : e.st.handle = 0) (phase : Phase) : entryOf (single e l phase).stack 1 = some e := by
  rw [entryOf_eq_some]
  simp [single, h, Slab.get?]

theorem writeEntry_single (h : e'.st.handle = 0) (phase : Phase) :
    writeEntry (single e l phase).stack 1 e' = (single e' l phase).stack := by
  simp [writeEntry, NetStack.setTcp, single, h, Slab.put]

theorem step_tcpMove {socket : Tcp.Socket} (h : e.st.handle = 0) (hp : e.socket.poll m = some socket) :
    step (single e l .poll) (.tcpMove 1 m) = some (single { e with socket } (l.polled m) .poll) := by
  simp only [step, entryOf_single h, bind_some, hp, map_some]
  rw [writeEntry_single (by exact h)]
  simp [single, setLog]

variable {eff : List Effect}

theorem step_visit (h : e.st.handle = 0) (hs : e.service 1 ms .empty = (some e', .empty, eff)) :
    step (single e l (.serviceTcp [1])) (.visitTcp ms) =
      some (single e' (eff.foldl Log.record l) (.serviceTcp [])) := by
  have h' : e'.st.handle = 0 := (Entry.service_same (by rw [hs])).handle.trans h
  have hv : visitTcp (single e l (.serviceTcp [1])).stack .empty 1 ms =
      some ((single e' l (.serviceTcp [1])).stack, .empty, eff) := by
    unfold visitTcp
    split
    case h_1 hn => simp [single] at hn
    case h_2 => simp only [entryOf_single h, map_some, hs, writeEntry_single h']
  simp only [step]
  change Option.map _ (visitTcp (single e l (.serviceTcp [1])).stack .empty 1 ms) = _
  rw [hv]
  simp [single, record, setLog]

theorem step_endPoll_single (e : Entry .low) (l : Log) :
    step (single e l .poll) (.endPoll [1]) = some (single e l (.serviceTcp [1])) := by
  have hk : Keys [1] 2 (single e l .poll).stack.tcpConns := by
    simp [Keys, single, range_succ]
  simp only [step]
  exact if_pos ⟨rfl, hk⟩

def serviceTurn : List Label :=
  [.endPoll [1], .visitTcp [], .endTcp [], .endUdp, .drain, .timer]

def round : List Label :=
  [.endPoll [1], .visitTcp [], .endTcp [], .endUdp, .drain]

theorem exec_round (h : e.st.handle = 0) (hs : e.service 1 [] .empty = (some e', .empty, eff)) :
    Lts.exec step (single e l .poll) round = some (single e' (eff.foldl Log.record l) .select) := by
  have hu : Keys [] 2 (fun _ => none : Nat → Option (UdpState .low)) := by decide
  have hend {l' : Log} : step (single e' l' (.serviceTcp [])) (.endTcp []) =
      some (single e' l' (.serviceUdp [])) := by
    simp only [step]
    exact if_pos ⟨rfl, hu⟩
  simp only [round, Lts.exec_cons, step_endPoll_single, step_visit h hs, hend, bind_some]
  rfl

theorem exec_serviceTurn (h : e.st.handle = 0) (hs : e.service 1 [] .empty = (some e', .empty, eff)) :
    Lts.exec step (single e l .poll) serviceTurn = some (single e' (eff.foldl Log.record l) .poll) := by
  have hr : serviceTurn = round ++ [.timer] := rfl
  rw [hr, Lts.exec_append, exec_round h hs]
  rfl

def peer : SocketAddr := ⟨.v4 (.new 1 1 1 1), 443⟩

def openTurn : List Label :=
  [.endPoll [], .endTcp [], .endUdp, .drain, .cmd (.openTcp peer .waiting) true]

def opening : List Label :=
  openTurn ++ .tcpMove 1 .synAck :: serviceTurn

-- The connection as it is opened and, with its answer given, as it is established.
def opened (established : Bool) (state : Tcp.State) : Entry .low where
  st := {
    handle := 0
    toApp := .empty
    fromStackRx := !established
    connectResp := if established then none else some .waiting
    pending := []
    established := established
    halfClosed := false
  }
  socket := { newTcpSocket .low peer 49152 with state }

theorem exec_openTurn : Lts.exec step (init {}) openTurn = some (single (opened false .synSent) {} .poll) := by
  have hk : Keys [] 1 (fun _ => none : Nat → Option (TcpState .low)) := by decide
  have hu : Keys [] 1 (fun _ => none : Nat → Option (UdpState .low)) := by decide
  simp [openTurn, step, init, single, opened, newTcpSocket, hk, hu, drainOne, command, handleCmd,
    addTcp, Slab.add, Slab.insertFirst, Cmd.ports, allocPort]

theorem exec_opening : Lts.exec step (init {}) opening =
      some (single (opened true .established) { hasSender := true } .poll) := by
  have hm : step (single (opened false .synSent) {} .poll) (.tcpMove 1 .synAck) =
      some (single (opened false .established) {} .poll) := step_tcpMove rfl rfl
  have hs : (opened false .established).service 1 [] .empty =
      (some (opened true .established), .empty, [.connected]) := rfl
  rw [opening, Lts.exec_append, exec_openTurn, bind_some, Lts.exec_cons, hm, bind_some]
  exact exec_serviceTurn rfl hs

end State

end Engine.Netstack
