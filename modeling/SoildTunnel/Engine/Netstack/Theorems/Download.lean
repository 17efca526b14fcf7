import SoildTunnel.Engine.Netstack.Theorems.Service

-- What the network sent reaches the application before the connection is removed.
namespace Engine.Netstack

open List Lts Option

variable {tier : Tier}

def Log.Downloaded (l : Log) : Prop :=
  l.removed → l.receiverDropped ∨ l.delivered = l.placed

-- What holds of a live connection: the bytes that were placed and not delivered are still unread.
structure Download (e : Entry tier) (l : Log) : Prop where
  removed : l.removed = false
  placed : l.placed = l.delivered ++ e.socket.rx.unread
  dropped : l.receiverDropped ↔ e.st.toApp.closed
  established : e.st.established → e.socket.state ≠ .synSent ∧ e.socket.state ≠ .listen

namespace Download

variable {e e' : Entry tier} {l l' : Log}

theorem close (h : Download e l) : Download e.close (l.record .closed) where
  removed := h.removed
  placed := by
    rw [show e.close.socket.rx = e.socket.rx from e.socket.close_rx]
    exact h.placed
  dropped := h.dropped
  established _ := e.socket.close_state_ne

theorem delivers (h : Download e l) (d : Entry.Delivers e e' l l') : Download e' l' := by
  have ⟨toApp, hst⟩ := d.st
  have ⟨rx, hs⟩ := d.socket
  have ⟨delivered, dropped, hl⟩ := d.log
  refine ⟨?_, ?_, d.dropped h.dropped, ?_⟩
  · rw [hl]; exact h.removed
  · rw [d.delivered, ← h.placed, hl]
  · rw [hst, hs]; exact h.established

theorem poll {socket : Tcp.Socket} {m : Tcp.Move} (h : Download e l)
    (hp : e.socket.poll m = some socket) : Download { e with socket } (l.polled m) := by
  obtain ⟨rfl, _, rfl⟩ | ⟨bytes, rx, rfl, hr, rfl⟩ | ⟨_, rfl, rfl⟩ | ⟨state, hs, rfl⟩ :=
    Tcp.Socket.poll_cases hp
  · exact ⟨h.removed, h.placed, h.dropped, fun _ => by simp⟩
  · refine ⟨h.removed, ?_, h.dropped, h.established⟩
    simp [Log.polled, h.placed, RingBuffer.enqueue_unread hr]
  · exact ⟨h.removed, h.placed, h.dropped, h.established⟩
  · rw [Log.polled_of_next hs]
    exact ⟨h.removed, h.placed, h.dropped, fun _ => Tcp.State.next_ne hs⟩

theorem announce (h : Download e l) (id : Nat) (q : DataQueue tier) :
    Download (e.announce id q).1 ((e.announce id q).2.2.foldl Log.record l) := by
  unfold Entry.announce
  split
  case isTrue hc =>
    have hn : e.socket.state ≠ .synSent ∧ e.socket.state ≠ .listen := by simp [hc.right]
    split
    case h_1 => exact ⟨h.removed, h.placed, h.dropped, fun _ => hn⟩
    case h_2 =>
      exact ⟨h.removed, h.placed, by simp [Log.record, Mpsc.dropReceiver], fun _ => hn⟩
    case h_3 => exact ⟨h.removed, h.placed, h.dropped, fun _ => hn⟩
  case isFalse => exact h

theorem handOver (h : Download e l) : Download e.handOver.1 (e.handOver.2.foldl Log.record l) := by
  simp only [Entry.handOver]
  split
  case isTrue => exact h
  case isFalse => exact ⟨h.removed, h.placed, h.dropped, h.established⟩

theorem closeDrained (h : Download e l) : Download e.closeDrained.1 (e.closeDrained.2.foldl Log.record l) := by
  unfold Entry.closeDrained
  split
  case isTrue => exact h.close
  case isFalse => exact h

theorem closeGone (h : Download e l) (exit : Entry.Exit) :
    Download (e.closeGone exit).1 ((e.closeGone exit).2.foldl Log.record l) := by
  unfold Entry.closeGone
  split
  case isTrue => exact h.close
  case isFalse => exact h

theorem exchange (h : Download e l) (ms : List AppMove) :
    Download (e.exchange ms).1 ((e.exchange ms).2.foldl Log.record l) := by
  simp only [Entry.exchange, foldl_append]
  exact (h.handOver.closeDrained.delivers (Entry.recvLoop_delivers _ _ _ _)).closeGone _

theorem settle (h : Download e l) (hs : e.settle.1 = some e') : Download e' (e.settle.2.foldl Log.record l) := by
  obtain ⟨_, he⟩ | ⟨_, _, he⟩ | ⟨_, hn, he⟩ | ⟨_, _, he⟩ := e.settle_cases <;> rw [he] at hs ⊢ <;> cases hs
  · exact h.close
  · exact ⟨h.removed, h.placed, h.dropped, h.established⟩
  · exact h

theorem service (h : Download e l) {id : Nat} {ms : List AppMove} {q : DataQueue tier}
    (hs : (e.service id ms q).1 = some e') :
    Download e' ((e.service id ms q).2.2.foldl Log.record l) := by
  simp only [Entry.service] at hs ⊢
  split at hs
  case isTrue => cases hs
  case isFalse hr =>
    simp only [hr, Bool.false_eq_true, if_false, foldl_append]
    exact ((h.announce id q).exchange ms).settle hs

end Download

def View.Download (v : View tier) : Prop :=
  ∀ e, v.entry = some e → Netstack.Download e v.log

theorem View.Move.download {v v' : View tier} (h : View.Move v v') (hi : v.Download) : v'.Download := by
  intro e' he'
  cases h
  case same => exact hi e' he'
  case opened hf =>
    cases he'
    exact ⟨rfl, by simp [hf.unread], by simp [hf.toApp], by simp [hf.established]⟩
  case moved hp => cases he'; exact (hi _ rfl).poll hp
  case appMoved => cases he'; exact (hi _ rfl).delivers (Entry.appMove_delivers ..)
  case ignored => cases he'
  case taken | takenPart | halfClosed | cancelled =>
    cases he'
    have h := hi _ rfl
    exact ⟨h.removed, h.placed, h.dropped, h.established⟩
  case closeSent | senderDropped =>
    have h := hi e' he'
    exact ⟨h.removed, h.placed, h.dropped, h.established⟩

variable {e : Entry tier}

theorem Entry.announce_live (hs : ¬ (e.st.established ∧ e.socket.state.isEnded)) (id : Nat) (q : DataQueue tier) :
    ¬ ((e.announce id q).1.st.established ∧ (e.announce id q).1.socket.state.isEnded) := by
  unfold announce
  split
  case isTrue hc => split <;> simp [hc.right, Tcp.State.isEnded]
  case isFalse => exact hs

variable {l : Log}

theorem Download.service_live (h : Download e l)
    (hs : ¬ (e.st.established ∧ e.socket.state.isEnded)) (id : Nat) (ms : List AppMove)
    (q : DataQueue tier) :
    ((e.service id ms q).2.2.foldl Log.record l).removed = false := by
  have ha := h.announce id q
  simp only [Entry.service]
  split
  case isTrue =>
    cases hr : (e.announce id q).1.st.connectResp <;>
      simpa [hr, Log.record] using ha.removed
  case isFalse =>
    have hx := ha.exchange ms
    have hl : Entry.Lives _ _ := .exchange ms (e := (e.announce id q).1)
    obtain ⟨_, he⟩ | ⟨hd, hst, he⟩ | ⟨_, _, he⟩ | ⟨_, _, he⟩ :=
        ((e.announce id q).1.exchange ms).1.settle_cases <;>
      simp only [he, foldl_append, foldl_cons, foldl_nil]
    · exact hx.removed
    · rw [hl.established] at hst
      rw [(hl.isEnded (ha.established hst)).left] at hd
      exact absurd ⟨hst, hd⟩ (Entry.announce_live hs id q)
    · exact hx.removed
    · exact hx.removed

-- Such a connection is removed, and the download is complete unless the channel was full while
-- bytes were left.
theorem Download.service_ended (h : Download e l) (he : e.st.established)
    (hs : e.socket.state.isEnded) (id : Nat) (ms : List AppMove) (q : DataQueue tier) :
    ((e.service id ms q).2.2.foldl Log.record l).Downloaded ↔
      e.st.answer e.socket.rx.chunks ms ≠ .full := by
  have hx := h.exchange ms
  have hl : Entry.Lives e _ := .exchange ms
  have hst : (e.exchange ms).1.st.established := hl.established ▸ he
  have hend : (e.exchange ms).1.socket.state.isEnded := (hl.isEnded (h.established he)).left ▸ hs
  have hset : (e.exchange ms).1.settle = (none, [.removed]) := by
    obtain ⟨hc, _⟩ | ⟨_, _, hr⟩ | ⟨_, hn, _⟩ | ⟨_, hn, _⟩ := (e.exchange ms).1.settle_cases
    · simp [hc, Tcp.State.isEnded] at hend
    · exact hr
    · simp [hst] at hn
    · exact absurd ⟨hend, hst⟩ hn
  rw [Entry.service_established he, hset, foldl_append, Ne, ← Entry.exchange_stuck]
  generalize (e.exchange ms).2.foldl Log.record l = l' at hx
  have hd : l'.delivered = l'.placed ↔ (e.exchange ms).1.socket.rx.unread = [] := by
    simp [hx.placed]
  simp only [foldl_cons, foldl_nil, Log.record, Log.Downloaded, hd, hx.dropped]
  cases (e.exchange ms).1.st.toApp.closed <;> simp

theorem View.Move.downloaded {v v' : View tier} (h : View.Move v v') (hi : v.Download)
    (hd : v.log.Downloaded) : v'.log.Downloaded := by
  have hlive {e} (he : v'.entry = some e) : v'.log.Downloaded := by
    intro hr
    cases hr.symm.trans (h.download hi e he).removed
  cases h
  case same | opened | ignored => exact hd
  case moved | taken | takenPart | halfClosed | appMoved | cancelled => exact hlive rfl
  case closeSent | senderDropped => exact hd

namespace State

def Downloaded (s : State tier) : Prop :=
  ∀ id, (s.log id).Downloaded

-- A visit that removes an established connection finds room in its channel for every chunk of the
-- receive buffer, or no receiver.
def KeepsUp (s : State tier) (l : Label) : Prop :=
  ∀ id ms e, s.Visits l id ms e → e.st.established → e.socket.state.isEnded →
    e.st.answer e.socket.rx.chunks ms ≠ .full

theorem sent_download {v : View tier} (data : Bytes) (hi : v.Download) : (v.sent data).Download := by
  intro e he
  have h := hi e he
  unfold View.sent Log.sent
  split <;> exact ⟨h.removed, h.placed, h.dropped, h.established⟩

theorem sent_downloaded (data : Bytes) (hd : l.Downloaded) : (l.sent data).Downloaded := by
  unfold Log.sent
  split <;> exact hd

theorem step_download {s s' : State tier} {l : Label} (hi : s.Inv View.Download)
    (h : s.step l = some s') : s'.Inv View.Download :=
  Inv.step (fun _ _ => View.Move.download) (fun _ _ _ _ _ _ hi _ he => (hi _ rfl).service he)
    (fun _ data _ => sent_download data) _ _ _ hi h

theorem step_downloaded_iff {s s' : State tier} {l : Label} (hi : s.Inv View.Download)
    (hd : s.Downloaded) (h : s.step l = some s') : s'.Downloaded ↔ s.KeepsUp l := by
  obtain ⟨id, ms, e, hv, hs, hk⟩ | ⟨id, data, ⟨rfl, _⟩, hs, hk⟩ | ⟨hn, _, hm⟩ :=
    step_cases hi.tables hi.unseen h
  case inr.inr =>
    refine iff_of_true (fun k => (hm k).downloaded (hi.conn k) (hd k)) ?_
    exact fun id ms e hv => absurd hv (hn id ms e)
  case inr.inl =>
    refine iff_of_true ?_ fun _ _ _ hv => nomatch hv.left
    rw [Downloaded, forall_log_iff hd hk, show s'.log id = (s.log id).sent data from congrArg View.log hs]
    exact sent_downloaded data (hd id)
  case inl =>
    have hl : s'.log id = (e.service id ms s.dataIn).2.2.foldl Log.record (s.log id) :=
      congrArg View.log hs
    have hde : Download e (s.log id) := hi.conn id e hv.right.right
    rw [Downloaded, forall_log_iff hd hk, hl]
    by_cases he : e.st.established ∧ e.socket.state.isEnded
    case pos =>
      rw [hde.service_ended he.left he.right]
      constructor
      case mp =>
        intro ha id' ms' e' hv' _ _
        obtain ⟨rfl, rfl, rfl⟩ := hv.unique hv'
        exact ha
      case mpr => exact fun hu => hu id ms e hv he.left he.right
    case neg =>
      refine iff_of_true ?_ ?_
      · intro hr
        cases hr.symm.trans (hde.service_live he id ms s.dataIn)
      · intro id' ms' e' hv' hst hend
        obtain ⟨rfl, rfl, rfl⟩ := hv.unique hv'
        exact absurd ⟨hst, hend⟩ he

-- A run delivers everything before it removes a connection exactly when, at each removal, the
-- application's channel has room for what is left or its receiver is gone.
theorem always_downloaded_iff (iface : Interface) (ls : List Label) :
    Lts.Always step Downloaded (init iface : State tier) ls ↔
      Lts.Admits step KeepsUp (init iface : State tier) ls := by
  refine always_iff_admits (I := Inv View.Download) ?_ ?_ (init_inv (fun _ h => nomatch h) iface) ?_
  · exact fun s l s' hi _ h _ => step_download hi h
  · exact fun s l s' hi hd h => step_downloaded_iff hi hd h
  · exact fun _ hr => nomatch hr

end State

-- The application reads nothing, and `n` chunks wait in its channel.
structure Entry.Backlog (n : Nat) (e : Entry .low) : Prop where
  handle : e.st.handle = 0
  established : e.st.established = true
  queue : e.st.toApp.queue.length = n
  closed : e.st.toApp.closed = false
  pending : e.st.pending = []
  halfClosed : e.st.halfClosed = false
  state : e.socket.state = .established

theorem TcpState.appMove_default (st : TcpState tier) : st.appMove {} = (st, []) := by
  simp [appMove]

namespace Entry.Backlog

variable {n : Nat} {e : Entry .low}

theorem tryReserve (h : e.Backlog n) : e.st.toApp.tryReserve = if n < 128 then .permit else .full := by
  simp [Mpsc.tryReserve, h.closed, h.queue, Tier.channelCapacity]

theorem receive (h : e.Backlog n) (hn : n < 128) : e.receive.Backlog (n + 1) := by
  have ⟨c, hc⟩ : ∃ c, e.st.toApp.trySend e.socket.rx.contiguous = some c :=
    ⟨_, dif_pos ⟨h.closed, by simpa [h.queue, Tier.channelCapacity] using hn⟩⟩
  obtain ⟨_, _, hq, hcl⟩ := Mpsc.trySend_eq_some hc
  refine ⟨h.handle, h.established, ?_, ?_, h.pending, h.halfClosed, h.state⟩
  · simp [Entry.receive, TcpState.push, hc, hq, h.queue]
  · simp [Entry.receive, TcpState.push, hc, hcl]

theorem service (h : e.Backlog n) (hn : n < 128) (hu : e.socket.rx.unread ≠ [])
    (hd : e.socket.rx.dequeue.unread = []) (q : DataQueue .low) :
    e.service 1 [] q = (some e.receive, q, [.delivered e.socket.rx.contiguous]) := by
  have hr := h.receive hn
  have hloop : ∃ exit, exit ≠ .gone ∧ e.recvLoop MAX_RECV_CHUNKS [] =
      (e.receive, exit, [.delivered e.socket.rx.contiguous]) := by
    have hc : e.socket.canRecv = true := by simp [Tcp.Socket.canRecv, hu]
    have hc' : e.receive.socket.canRecv = false := by simp [Tcp.Socket.canRecv, Entry.receive, hd]
    have h₁ : e.st.toApp.tryReserve = .permit := h.tryReserve.trans (if_pos hn)
    have h₂ := hr.tryReserve
    have hm : MAX_RECV_CHUNKS = 126 + 1 + 1 := rfl
    split at h₂
    case isTrue =>
      refine ⟨.idle, by simp, ?_⟩
      simp [hm, recvLoop, TcpState.appMove_default, h₁, hc, h₂, hc']
    case isFalse =>
      refine ⟨.full, by simp, ?_⟩
      simp [hm, recvLoop, TcpState.appMove_default, h₁, hc, h₂]
  obtain ⟨exit, hx, hl⟩ := hloop
  have ho : e.handOver = (e, []) := by
    simp [handOver, Tcp.Socket.accepts, h.pending]
  have hc : e.closeDrained = (e, []) := by
    simp [closeDrained, h.halfClosed]
  have hs : e.receive.settle = (some e.receive, []) := by
    simp [settle, hr.state]
  rw [service_established h.established]
  simp [exchange, ho, hc, hl, closeGone, hx, hs]

end Entry.Backlog

namespace State

theorem exec_opening_backlog : ∃ e l, Lts.exec step (init {}) opening = some (single e l .poll) ∧ e.Backlog 0 ∧
      e.socket.rx.unread = [] :=
  ⟨_, _, exec_opening, ⟨rfl, rfl, rfl, rfl, rfl, rfl, rfl⟩, rfl⟩

def feed : List Label :=
  .tcpMove 1 (.data [0]) :: serviceTurn

variable {e : Entry .low}

theorem exec_feed {n : Nat} (h : e.Backlog n) (hn : n < 128) (hu : e.socket.rx.unread = []) :
    ∃ e' l', Lts.exec step (single e l .poll) feed = some (single e' l' .poll) ∧ e'.Backlog (n + 1) ∧
      e'.socket.rx.unread = [] := by
  have hr := e.socket.rx.readAt_lt
  have ⟨rx, hx⟩ : ∃ rx, e.socket.rx.enqueue [0] = some rx :=
    ⟨_, dif_pos (by simp [hu]; omega)⟩
  have hun : rx.unread = [0] := by simp [RingBuffer.enqueue_unread hx, hu]
  have hp : e.socket.poll (.data [0]) = some { e.socket with rx } := by
    simp [Tcp.Socket.poll, h.state, Tcp.State.receives, hx]
  have hd : rx.dequeue.unread = [] := by
    have hr := rx.readAt_lt
    simp [RingBuffer.dequeue, hun]
    omega
  have hb : Entry.Backlog n { e with socket := { e.socket with rx } } :=
    ⟨h.handle, h.established, h.queue, h.closed, h.pending, h.halfClosed, h.state⟩
  have hs := hb.service hn (by simp [hun]) hd .empty
  have hf := exec_serviceTurn (l := l.polled (.data [0])) hb.handle hs
  have hx : Lts.exec step (single e l .poll) feed =
      (Lts.exec step (single { e with socket := { e.socket with rx } } (l.polled (.data [0])) .poll)
        serviceTurn) := by
    rw [feed, exec_cons, step_tcpMove h.handle hp, bind_some]
  exact ⟨_, _, hx.trans hf, hb.receive hn, hd⟩

def feeds (n : Nat) : List Label :=
  (List.replicate n feed).flatten

theorem exec_feeds {n : Nat} (hn : n ≤ 128) :
    ∃ e l, Lts.exec step (init {}) (opening ++ feeds n) = some (single e l .poll) ∧ e.Backlog n ∧
      e.socket.rx.unread = [] := by
  induction n
  case zero => simpa [feeds] using exec_opening_backlog
  case succ n hi =>
    have ⟨e, l, hx, hb, hu⟩ := hi (by omega)
    have ⟨e', l', hx', hb', hu'⟩ := exec_feed (l := l) hb (by omega) hu
    refine ⟨e', l', ?_, hb', hu'⟩
    rw [feeds, replicate_succ', flatten_append, ← append_assoc, ← feeds,
      exec_append, hx]
    simpa using hx'

theorem step_visit_single (ms : List AppMove) (h : e.st.handle = 0) :
    ∃ s', step (single e l (.serviceTcp [1])) (.visitTcp ms) = some s' := by
  have ⟨r, hv⟩ : ∃ r, visitTcp (single e l (.serviceTcp [1])).stack .empty 1 ms = some r := by
    unfold visitTcp
    split
    case h_1 => exact ⟨_, rfl⟩
    case h_2 => exact ⟨_, by rw [entryOf_single h, map_some]⟩
  simp only [step]
  change ∃ s', Option.map _ (visitTcp (single e l (.serviceTcp [1])).stack .empty 1 ms) = some s'
  exact ⟨_, by rw [hv, map_some]⟩

theorem not_keepsUp (hh : e.st.handle = 0) (he : e.st.established)
    (hs : e.socket.state = .closed) (hu : e.socket.rx.unread ≠ []) (hf : e.st.toApp.tryReserve = .full) :
    ¬ (single e l (.serviceTcp [1])).KeepsUp (.visitTcp []) := by
  intro hk
  refine hk 1 [] e ⟨rfl, ⟨[], rfl⟩, entryOf_single hh _⟩ he (by simp [hs, Tcp.State.isEnded]) ?_
  simp [RingBuffer.chunks_dequeue hu, TcpState.answer, TcpState.appMove_default, hf]

def lastTurn : List Label :=
  [.tcpMove 1 (.data [0]), .tcpMove 1 .abort, .endPoll [1]]

theorem exec_lastTurn (h : e.Backlog 128) (hu : e.socket.rx.unread = []) :
    ∃ e' l', Lts.exec step (single e l .poll) lastTurn = some (single e' l' (.serviceTcp [1])) ∧
      e'.st.handle = 0 ∧ ¬ (single e' l' (.serviceTcp [1])).KeepsUp (.visitTcp []) := by
  have hr := e.socket.rx.readAt_lt
  have ⟨rx, hx⟩ : ∃ rx, e.socket.rx.enqueue [0] = some rx :=
    ⟨_, dif_pos (by simp [hu]; omega)⟩
  have hun : rx.unread = [0] := by simp [RingBuffer.enqueue_unread hx, hu]
  have h₁ : e.socket.poll (.data [0]) = some { e.socket with rx } := by
    simp [Tcp.Socket.poll, h.state, Tcp.State.receives, hx]
  have h₂ : Tcp.Socket.poll { e.socket with rx } .abort = some { e.socket with rx, state := .closed } := by
    simp [Tcp.Socket.poll, h.state]
  refine ⟨{ e with socket := { e.socket with rx, state := .closed } },
    (l.polled (.data [0])).polled .abort, ?_, h.handle,
    not_keepsUp h.handle h.established rfl (by simp [hun]) (h.tryReserve.trans (if_neg (by decide)))⟩
  simp only [lastTurn, exec_cons, step_tcpMove h.handle h₁, bind_some]
  rw [step_tcpMove (by exact h.handle) h₂]
  simp [step_endPoll_single]

-- The connection is reset while its channel is full and a byte waits in the receive buffer.
theorem not_always_downloaded : ¬ Lts.Always step Downloaded (init {} : State .low)
      (opening ++ feeds 128 ++ lastTurn ++ [.visitTcp []]) := by
  intro h
  have ⟨e, l, hx, hb, hu⟩ := exec_feeds (Nat.le_refl 128)
  have ⟨e', l', hx', hh, hk⟩ := exec_lastTurn (l := l) hb hu
  have hs : Lts.exec step (init {}) (opening ++ feeds 128 ++ lastTurn) =
      some (single e' l' (.serviceTcp [1])) := by
    rw [exec_append, hx, bind_some, hx']
  have hi : Inv View.Download (single e' l' (.serviceTcp [1])) :=
    exec_invariant (fun _ _ _ hi h => step_download hi h) (init_inv (fun _ h => nomatch h) {}) hs
  have ⟨hd, hd'⟩ := h.of_exec hs
  have ⟨s', hv⟩ := step_visit_single (l := l') [] hh
  exact hk <| (step_downloaded_iff hi hd hv).mp (hd' s' hv)

end State

end Engine.Netstack
