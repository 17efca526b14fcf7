import SoildTunnel.Engine.Netstack.Theorems.Service

-- What the application sent is handed to the socket before the stack closes or removes it.
namespace Engine.Netstack

open List

variable {tier : Tier}

namespace Log

def ended (l : Log) : Bool :=
  l.closed || l.removed || l.discarded

def Uploaded (l : Log) : Prop :=
  l.ended → l.aborted = false → l.accepted <+: l.handed

theorem record_accepted (l : Log) (eff : Effect) : (l.record eff).accepted = l.accepted := by
  cases eff <;> rfl

theorem foldl_record_accepted (l : Log) (eff : List Effect) : (eff.foldl record l).accepted = l.accepted := by
  induction eff generalizing l
  case nil => rfl
  case cons eff effs hi => rw [foldl_cons, hi, record_accepted]

end Log

def ahead : List Msg → Bytes
  | [] => []
  | .data bytes :: b => bytes ++ ahead b
  | .close :: _ => []

theorem ahead_append_close (b : List Msg) : ahead (b ++ [.close]) = ahead b := by
  induction b
  case nil => rfl
  case cons m b hi => cases m <;> simp [ahead, hi]

variable {b : List Msg}

theorem ahead_append_data (h : .close ∉ b) (data : Bytes) : ahead (b ++ [.data data]) = ahead b ++ data := by
  induction b
  case nil => simp [ahead]
  case cons m b hi =>
    cases m
    case data bytes => simp [ahead, hi (not_mem_of_not_mem_cons h)]
    case close => simp at h

theorem ahead_append_data_of_close (h : .close ∈ b) (data : Bytes) : ahead (b ++ [.data data]) = ahead b := by
  induction b
  case nil => cases h
  case cons m b hi =>
    cases m
    case data bytes => simp [ahead, hi (by simpa using h)]
    case close => rfl

def Tcp.State.finSent : Tcp.State → Bool
  | .finWait1 | .finWait2 | .closing | .lastAck | .timeWait => true
  | _ => false

namespace Tcp.State

variable {st st' : Tcp.State} {m : Tcp.Move}

theorem finSent_of_next (h : st.next m = some st') (hf : st'.finSent) : st.finSent := by
  unfold next at h
  split at h <;> cases h <;> first | rfl | cases hf

theorem finSent_of_next_closed (h : st.next m = some st') (hc : st' = .closed) : st.finSent := by
  unfold next at h
  split at h <;> cases h <;> first | rfl | cases hc

end Tcp.State

-- What holds of a live connection: every byte that was accepted is handed over, pending or queued,
-- in this order.
structure Upload (e : Entry tier) (l : Log) (b : List Msg) : Prop where
  live : l.removed = false ∧ l.discarded = false
  unclosed : e.st.halfClosed = false → l.accepted = l.handed ++ e.st.pending ++ ahead b
  halfClosed : e.st.halfClosed = true → l.accepted <+: l.handed ++ e.st.pending
  closeSent : l.closeSent = true ↔ e.st.halfClosed = true ∨ .close ∈ b
  finSent : e.socket.state.finSent → l.closed = true
  dead : e.socket.state = .closed → l.closed = true ∨ l.aborted = true
  unannounced : e.st.established = false → l.hasSender = false ∧ l.accepted = [] ∧ l.closeSent = false

namespace Upload

variable {e e' : Entry tier} {l l' : Log} {b : List Msg}

theorem close (h : Upload e l b) : Upload e.close (l.record .closed) b where
  live := h.live
  unclosed := h.unclosed
  halfClosed := h.halfClosed
  closeSent := h.closeSent
  finSent _ := rfl
  dead _ := .inl rfl
  unannounced := h.unannounced

theorem delivers (h : Upload e l b) (d : Entry.Delivers e e' l l') : Upload e' l' b := by
  have ⟨toApp, hst⟩ := d.st
  have ⟨rx, hs⟩ := d.socket
  have ⟨delivered, dropped, hl⟩ := d.log
  cases e'
  subst hl hst hs
  exact ⟨h.live, h.unclosed, h.halfClosed, h.closeSent, h.finSent, h.dead, h.unannounced⟩

theorem poll {socket : Tcp.Socket} {m : Tcp.Move} (h : Upload e l b)
    (hp : e.socket.poll m = some socket) : Upload { e with socket } (l.polled m) b := by
  obtain ⟨rfl, _, rfl⟩ | ⟨bytes, rx, rfl, hr, rfl⟩ | ⟨_, rfl, rfl⟩ | ⟨state, hs, rfl⟩ :=
    Tcp.Socket.poll_cases hp
  · exact ⟨h.live, h.unclosed, h.halfClosed, h.closeSent, nofun, fun _ => .inr rfl, h.unannounced⟩
  · exact ⟨h.live, h.unclosed, h.halfClosed, h.closeSent, h.finSent, h.dead, h.unannounced⟩
  · exact ⟨h.live, h.unclosed, h.halfClosed, h.closeSent, h.finSent, h.dead, h.unannounced⟩
  · rw [Log.polled_of_next hs]
    have hf : state.finSent → e.socket.state.finSent := Tcp.State.finSent_of_next hs
    have hc : state = .closed → e.socket.state.finSent := Tcp.State.finSent_of_next_closed hs
    exact ⟨h.live, h.unclosed, h.halfClosed, h.closeSent, h.finSent ∘ hf,
      fun hd => .inl (h.finSent (hc hd)), h.unannounced⟩

theorem announce (h : Upload e l b) (id : Nat) (q : DataQueue tier) :
    Upload (e.announce id q).1 ((e.announce id q).2.2.foldl Log.record l)
      (b ++ (e.announce id q).2.2.filterMap Effect.closing) := by
  unfold Entry.announce
  split
  case isTrue hc =>
    obtain ⟨_, _, hcs⟩ := h.unannounced hc.left
    split
    case h_1 =>
      rw [show b ++ List.filterMap Effect.closing [.connected] = b from append_nil b]
      exact ⟨h.live, h.unclosed, h.halfClosed, h.closeSent, h.finSent, h.dead, fun h => by cases h⟩
    case h_2 =>
      cases (q.trySend (.tcpClose id)).isSome
      case false =>
        rw [show b ++ List.filterMap Effect.closing [.orphaned false] = b from append_nil b]
        refine ⟨h.live, h.unclosed, h.halfClosed, ?_, h.finSent, h.dead, fun h => by cases h⟩
        simpa [Log.record] using h.closeSent
      case true =>
        rw [show b ++ List.filterMap Effect.closing [.orphaned true] = b ++ [.close] from rfl]
        refine ⟨h.live, ?_, h.halfClosed, ?_, h.finSent, h.dead, fun h => by cases h⟩
        · rw [ahead_append_close]
          exact h.unclosed
        · simp [Log.record]
    case h_3 =>
      rw [show b ++ List.filterMap Effect.closing [] = b from append_nil b]
      exact ⟨h.live, h.unclosed, h.halfClosed, h.closeSent, h.finSent, h.dead, fun h => by cases h⟩
  case isFalse => simpa using h

theorem handOver (h : Upload e l b) : Upload e.handOver.1 (e.handOver.2.foldl Log.record l) b := by
  simp only [Entry.handOver]
  split
  case isTrue => exact h
  case isFalse =>
    refine ⟨h.live, fun hc => ?_, fun hc => ?_, h.closeSent, h.finSent, h.dead, h.unannounced⟩
    · simp [Log.record, h.unclosed hc]
    · simpa [Log.record] using h.halfClosed hc

theorem closeDrained (h : Upload e l b) : Upload e.closeDrained.1 (e.closeDrained.2.foldl Log.record l) b := by
  unfold Entry.closeDrained
  split
  case isTrue => exact h.close
  case isFalse => exact h

theorem closeGone (h : Upload e l b) (exit : Entry.Exit) :
    Upload (e.closeGone exit).1 ((e.closeGone exit).2.foldl Log.record l) b := by
  unfold Entry.closeGone
  split
  case isTrue => exact h.close
  case isFalse => exact h

theorem exchange (h : Upload e l b) (ms : List AppMove) :
    Upload (e.exchange ms).1 ((e.exchange ms).2.foldl Log.record l) b := by
  simp only [Entry.exchange, foldl_append]
  exact (h.handOver.closeDrained.delivers (Entry.recvLoop_delivers _ _ _ _)).closeGone _

theorem halfClosed_eq_false (h : Upload e l b) (hc : l.closeSent = false) : e.st.halfClosed = false := by
  cases hh : e.st.halfClosed
  case false => rfl
  case true => cases hc.symm.trans (h.closeSent.mpr (.inl hh))

theorem pending_eq_nil (h : Upload e l b) (he : e.st.established = false) : e.st.pending = [] := by
  obtain ⟨_, ha, hc⟩ := h.unannounced he
  have hu := h.unclosed (h.halfClosed_eq_false hc)
  rw [ha] at hu
  exact (append_eq_nil_iff.mp (append_eq_nil_iff.mp hu.symm).1).2

theorem settle (h : Upload e l b) (hs : e.settle.1 = some e') : Upload e' (e.settle.2.foldl Log.record l) b := by
  obtain ⟨_, he⟩ | ⟨_, _, he⟩ | ⟨_, hn, he⟩ | ⟨_, _, he⟩ := e.settle_cases <;> rw [he] at hs ⊢ <;> cases hs
  · exact h.close
  · have hp := h.pending_eq_nil hn
    refine ⟨h.live, ?_, ?_, h.closeSent, h.finSent, h.dead, h.unannounced⟩
    · rw [← hp]; exact h.unclosed
    · rw [← hp]; exact h.halfClosed
  · exact h

theorem service (h : Upload e l b) {id : Nat} {ms : List AppMove} {q : DataQueue tier}
    (hs : (e.service id ms q).1 = some e') :
    Upload e' ((e.service id ms q).2.2.foldl Log.record l)
      (b ++ (e.service id ms q).2.2.filterMap Effect.closing) := by
  simp only [Entry.service] at hs ⊢
  split at hs
  case isTrue => cases hs
  case isFalse hr =>
    simp only [hr, Bool.false_eq_true, if_false, foldl_append, filterMap_append,
      Entry.exchange_closing, Entry.settle_closing, append_nil]
    exact ((h.announce id q).exchange ms).settle hs

theorem handed_prefix (h : Upload e l b) (hc : l.closeSent = false) : l.handed <+: l.accepted := by
  rw [h.unclosed (h.halfClosed_eq_false hc), append_assoc]
  exact prefix_append ..

theorem prefix_iff (h : Upload e l b) (n : Nat) (hn : n ≤ e.st.pending.length) :
    l.accepted <+: l.handed ++ e.st.pending.take n ↔ l.accepted.length ≤ l.handed.length + n := by
  have hlen : (l.handed ++ e.st.pending.take n).length = l.handed.length + n := by simp [hn]
  have ⟨w, ha, hw⟩ : ∃ w, l.accepted <+: w ∧ l.handed ++ e.st.pending <+: w := by
    cases hh : e.st.halfClosed
    case true => exact ⟨_, h.halfClosed hh, prefix_rfl⟩
    case false => exact ⟨_, prefix_rfl, h.unclosed hh ▸ prefix_append ..⟩
  have ht : l.handed ++ e.st.pending.take n <+: w :=
    ((prefix_append_right_inj _).mpr (List.take_prefix ..)).trans hw
  rw [← hlen]
  exact ⟨List.IsPrefix.length_le, prefix_of_prefix_length_le ha ht⟩

end Upload

-- A round that closes the socket because of the remote end or of a dropped receiver hands over all
-- that was accepted.
def Entry.Completes (e : Entry tier) (l : Log) (ms : List AppMove) : Prop :=
  l.closed = false → l.aborted = false → (e.socket.state = .closeWait ∨ e.LosesReceiver ms) →
    l.accepted.length ≤ l.handed.length + e.socket.accepts e.st.pending

namespace Upload

variable {e : Entry tier} {l : Log} {b : List Msg}

theorem accepts_le (e : Entry tier) : e.socket.accepts e.st.pending ≤ e.st.pending.length := by
  unfold Tcp.Socket.accepts
  split
  case isTrue => exact Nat.min_le_right ..
  case isFalse => exact Nat.zero_le _

theorem prefix_of_exchange (h : Upload e l b) (hu : l.Uploaded) {ms : List AppMove}
    (hc : e.Completes l ms) (ha : l.aborted = false)
    (he : l.closed ∨ e.Drains ∨ e.LosesReceiver ms ∨ e.socket.state = .closeWait) :
    l.accepted <+: l.handed ++ e.st.pending.take (e.socket.accepts e.st.pending) := by
  cases hcl : l.closed
  case true => exact (hu (by simp [Log.ended, hcl]) ha).trans (prefix_append ..)
  case false =>
    obtain hcl' | ⟨hh, hd⟩ | hl | hs := he
    · simp [hcl] at hcl'
    · have hp : e.st.pending.take (e.socket.accepts e.st.pending) = e.st.pending :=
        take_of_length_le (drop_eq_nil_iff.mp hd)
      rw [hp]
      exact h.halfClosed hh
    · exact (h.prefix_iff _ (accepts_le e)).mpr (hc hcl ha (.inr hl))
    · exact (h.prefix_iff _ (accepts_le e)).mpr (hc hcl ha (.inl hs))

theorem ended_iff (h : Upload e l b) (ha : l.aborted = false) (ms : List AppMove) :
    (((e.exchange ms).2 ++ (e.exchange ms).1.settle.2).foldl Log.record l).ended = true ↔
      l.closed ∨ e.Drains ∨ e.LosesReceiver ms ∨ e.socket.state = .closeWait := by
  have ⟨delivered, dropped, hl⟩ := e.exchange_log ms l
  have hend : e.socket.state.isEnded → l.closed = true := by
    intro hs
    cases hc : e.socket.state <;> simp [hc, Tcp.State.isEnded] at hs
    case closed => simpa [ha] using h.dead hc
    case timeWait => exact h.finSent (by rw [hc]; rfl)
  rw [foldl_append, hl, Entry.settle_log]
  simp only [Log.ended, Bool.or_eq_true, decide_eq_true_eq, h.live.left, h.live.right,
    Bool.false_eq_true, false_or, or_false]
  by_cases hd : e.Drains
  case pos => simp [hd]
  case neg =>
  by_cases hg : e.LosesReceiver ms
  case pos => simp [hg]
  case neg =>
    rw [Entry.exchange_state hd hg]
    simp only [hd, hg, false_or, or_false]
    constructor
    case mp => exact fun hs => hs.elim id fun hs => .inl (hend hs.left)
    case mpr => exact .inl

theorem service_uploaded_iff (h : Upload e l b) (hu : l.Uploaded) (id : Nat) (ms : List AppMove)
    (q : DataQueue tier) :
    ((e.service id ms q).2.2.foldl Log.record l).Uploaded ↔ e.Completes l ms := by
  cases he : e.st.established
  case false =>
    have ha := (h.unannounced he).right.left
    refine iff_of_true (fun _ _ => ?_) fun _ _ _ => by simp [ha]
    rw [Log.foldl_record_accepted, ha]
    exact nil_prefix
  case true =>
    have ⟨delivered, dropped, hl⟩ := e.exchange_log ms l
    rw [Entry.service_established he, Log.Uploaded]
    have hab : (((e.exchange ms).2 ++ (e.exchange ms).1.settle.2).foldl Log.record l).aborted = l.aborted := by
      rw [foldl_append, hl, Entry.settle_log]
    have hha : (((e.exchange ms).2 ++ (e.exchange ms).1.settle.2).foldl Log.record l).handed =
        l.handed ++ e.st.pending.take (e.socket.accepts e.st.pending) := by
      rw [foldl_append, hl, Entry.settle_log]
    rw [hab, hha, Log.foldl_record_accepted]
    constructor
    case mp =>
      intro hup hcl ha hs
      refine (h.prefix_iff _ (accepts_le e)).mp (hup ?_ ha)
      exact (h.ended_iff ha ms).mpr (hs.elim (.inr <| .inr <| .inr ·) (.inr <| .inr <| .inl ·))
    case mpr =>
      intro hc hend ha
      exact h.prefix_of_exchange hu hc ha ((h.ended_iff ha ms).mp hend)

end Upload

structure View.Upload (v : View tier) : Prop where
  conn {e} : v.entry = some e → Netstack.Upload e v.log v.inbox
  handed : v.log.closeSent = false → v.log.handed <+: v.log.accepted

theorem View.Move.upload {v v' : View tier} (h : View.Move v v') (hi : v.Upload) : v'.Upload := by
  cases h
  case same => exact hi
  case opened hf =>
    refine ⟨fun he => ?_, fun _ => prefix_rfl⟩
    cases he
    refine ⟨⟨rfl, rfl⟩, ?_, ?_, ?_, ?_, ?_, fun _ => ⟨rfl, rfl, rfl⟩⟩
    · simp [hf.pending, ahead]
    · simp [hf.pending]
    · simp [hf.halfClosed]
    · simp [hf.state, Tcp.State.finSent]
    · simp [hf.state]
  case moved e l b m socket hp =>
    have hl : (l.polled m).handed = l.handed ∧ (l.polled m).accepted = l.accepted ∧
        (l.polled m).closeSent = l.closeSent := by
      cases m <;> exact ⟨rfl, rfl, rfl⟩
    refine ⟨fun he => ?_, ?_⟩
    · cases he; exact (hi.conn rfl).poll hp
    · simp only [hl]; exact hi.handed
  case taken e l b data =>
    have h := hi.conn rfl
    refine ⟨fun he => ?_, hi.handed⟩
    cases he
    refine ⟨h.live, fun hc => ?_, fun hc => ?_, ?_, h.finSent, h.dead, h.unannounced⟩
    · simpa [ahead] using h.unclosed hc
    · rw [← append_assoc]
      exact (h.halfClosed hc).trans (prefix_append ..)
    · simpa using h.closeSent
  case takenPart e l b data n =>
    have h := hi.conn rfl
    refine ⟨fun he => ?_, hi.handed⟩
    cases he
    refine ⟨h.live, fun hc => ?_, fun hc => ?_, ?_, h.finSent, h.dead, h.unannounced⟩
    · have ht : data.take n ++ (data.drop n ++ ahead b) = data ++ ahead b := by
        rw [← append_assoc, take_append_drop]
      simpa [ahead, ht] using h.unclosed hc
    · rw [← append_assoc]
      exact (h.halfClosed hc).trans (prefix_append ..)
    · simpa using h.closeSent
  case halfClosed e l b =>
    have h := hi.conn rfl
    refine ⟨fun he => ?_, hi.handed⟩
    cases he
    refine ⟨h.live, nofun, fun _ => ?_, ?_, h.finSent, h.dead, h.unannounced⟩
    · cases hc : e.st.halfClosed
      case true => exact h.halfClosed hc
      case false =>
        have ha := h.unclosed hc
        rw [ahead, append_nil] at ha
        exact ha ▸ prefix_rfl
    · simpa using h.closeSent
  case ignored => exact ⟨nofun, hi.handed⟩
  case appMoved e l b m =>
    have d := Entry.appMove_delivers m e l
    have ⟨_, _, hl⟩ := d.log
    refine ⟨fun he => ?_, ?_⟩
    · cases he; exact (hi.conn rfl).delivers d
    · simp only [hl]; exact hi.handed
  case cancelled =>
    have h := hi.conn rfl
    refine ⟨fun he => ?_, hi.handed⟩
    cases he
    exact ⟨h.live, h.unclosed, h.halfClosed, h.closeSent, h.finSent, h.dead, h.unannounced⟩
  case closeSent e l b hs =>
    refine ⟨fun he => ?_, nofun⟩
    have h := hi.conn he
    refine ⟨h.live, ?_, h.halfClosed, by simp, h.finSent, h.dead, fun hn => ?_⟩
    · rw [ahead_append_close]; exact h.unclosed
    · cases hs.symm.trans (h.unannounced hn).left
  case senderDropped e l b queued hs =>
    cases queued
    case false =>
      refine ⟨fun he => ?_, fun hc => hi.handed (by simpa using hc)⟩
      have h := hi.conn he
      refine ⟨h.live, ?_, h.halfClosed, by simpa using h.closeSent, h.finSent, h.dead, fun hn => ?_⟩
      · simpa using h.unclosed
      · cases hs.symm.trans (h.unannounced hn).left
    case true =>
      refine ⟨fun he => ?_, fun hc => by simp at hc⟩
      have h := hi.conn he
      refine ⟨h.live, ?_, h.halfClosed, by simp, h.finSent, h.dead, fun hn => ?_⟩
      · simpa [ahead_append_close] using h.unclosed
      · cases hs.symm.trans (h.unannounced hn).left

theorem View.Upload.sent {v : View tier} (hi : v.Upload) (hs : v.log.hasSender) (data : Bytes) :
    (v.sent data).Upload := by
  unfold View.sent Log.sent
  split
  case isTrue hc =>
    refine ⟨fun he => ?_, hi.handed⟩
    have h := hi.conn he
    refine ⟨h.live, fun hh => ?_, h.halfClosed, by simpa using h.closeSent, h.finSent, h.dead, h.unannounced⟩
    have hm : Msg.close ∈ v.inbox := (h.closeSent.mp hc).resolve_left (by simp [hh])
    rw [ahead_append_data_of_close hm]
    exact h.unclosed hh
  case isFalse hc =>
    refine ⟨fun he => ?_, fun hn => (hi.handed hn).trans (prefix_append ..)⟩
    have h := hi.conn he
    have hm : Msg.close ∉ v.inbox := fun hm => hc (h.closeSent.mpr (.inr hm))
    refine ⟨h.live, fun hh => ?_, fun hh => ?_, by simpa using h.closeSent, h.finSent, h.dead, fun hn => ?_⟩
    · simp [ahead_append_data hm, h.unclosed hh]
    · exact absurd (h.closeSent.mpr (.inl hh)) hc
    · cases hs.symm.trans (h.unannounced hn).left

theorem View.Upload.serviced {e : Entry tier} {l : Log} (hi : View.Upload ⟨some e, l, b⟩)
    (id : Nat) (ms : List AppMove) (q : DataQueue tier) : (View.serviced e l b id ms q).Upload := by
  have h := hi.conn rfl
  have ha := h.announce id q
  refine ⟨fun he => h.service he, ?_⟩
  simp only [View.serviced, Entry.service]
  split
  case isTrue =>
    cases (e.announce id q).1.st.connectResp <;>
      simpa [foldl_append, Log.record] using ha.handed_prefix
  case isFalse =>
    have hx := ha.exchange ms
    rw [foldl_append, Entry.settle_log, foldl_append]
    exact hx.handed_prefix

namespace State

def Uploaded (s : State tier) : Prop :=
  ∀ id, (s.log id).Uploaded

-- No round closes a socket early, and nothing is sent to a connection that the stack has ended.
structure UploadsFirst (s : State tier) (l : Label) : Prop where
  visit {id ms e} : s.Visits l id ms e → e.Completes (s.log id) ms
  send {id data} : s.Sends l id data → (s.log id).ended → (s.log id).aborted = false →
    (s.log id).closeSent = false → data = []

theorem step_upload {s s' : State tier} {l : Label} (hi : s.Inv View.Upload)
    (h : s.step l = some s') : s'.Inv View.Upload :=
  Inv.step (fun _ _ => View.Move.upload) (fun _ _ _ id ms q hi => hi.serviced id ms q)
    (fun _ data hs hi => hi.sent hs data) _ _ _ hi h

theorem sent_uploaded_iff {l : Log} (hh : l.closeSent = false → l.handed <+: l.accepted)
    (hu : l.Uploaded) (data : Bytes) :
    (l.sent data).Uploaded ↔ (l.ended → l.aborted = false → l.closeSent = false → data = []) := by
  unfold Log.sent
  split
  case isTrue hc => exact iff_of_true hu fun _ _ hn => by simp [hc] at hn
  case isFalse hc =>
    have hc : l.closeSent = false := by simpa using hc
    constructor
    case mp =>
      intro hup hend ha _
      have hle := (hup hend ha).length_le
      have hle' := (hh hc).length_le
      simp at hle
      exact eq_nil_of_length_eq_zero (by omega)
    case mpr =>
      intro hd hend ha
      rw [hd hend ha hc, append_nil]
      exact hu hend ha

theorem Move.uploaded {v v' : View tier} (h : View.Move v v') (hu : v.log.Uploaded) : v'.log.Uploaded := by
  cases h
  case moved e l b m socket hp => cases m <;> first | exact hu | exact fun _ ha => nomatch ha
  case appMoved e l b m =>
    have ⟨_, _, hl⟩ := (Entry.appMove_delivers m e l).log
    simp only [hl]
    exact hu
  all_goals exact hu

theorem step_uploaded_iff {s s' : State tier} {l : Label} (hi : s.Inv View.Upload)
    (hu : s.Uploaded) (h : s.step l = some s') : s'.Uploaded ↔ s.UploadsFirst l := by
  obtain ⟨id, ms, e, hv, hs, hk⟩ | ⟨id, data, hd, hs, hk⟩ | ⟨hn, hd, hm⟩ :=
    step_cases hi.tables hi.unseen h
  case inr.inr =>
    refine iff_of_true (fun k => Move.uploaded (hm k) (hu k)) ⟨?_, ?_⟩
    · exact fun hv => absurd hv (hn _ _ _)
    · exact fun hs => absurd hs (hd _ _)
  case inr.inl =>
    have hl : s'.log id = (s.log id).sent data := congrArg View.log hs
    have hh : (s.log id).closeSent = false → (s.log id).handed <+: (s.log id).accepted :=
      (hi.conn id).handed
    rw [Uploaded, forall_log_iff hu hk, hl, sent_uploaded_iff hh (hu id)]
    constructor
    case mp =>
      refine fun hn => ⟨fun hv => ?_, fun hd' => ?_⟩
      · cases hd.left.symm.trans hv.left
      · cases hd.left.symm.trans hd'.left
        exact hn
    case mpr => exact fun hf => hf.send hd
  case inl =>
    have hl : s'.log id = (e.service id ms s.dataIn).2.2.foldl Log.record (s.log id) :=
      congrArg View.log hs
    have hup : Upload e (s.log id) (s.view id).inbox := (hi.conn id).conn hv.right.right
    rw [Uploaded, forall_log_iff hu hk, hl, hup.service_uploaded_iff (hu id)]
    constructor
    case mp =>
      refine fun hc => ⟨fun hv' => ?_, fun hd => ?_⟩
      · obtain ⟨rfl, rfl, rfl⟩ := hv.unique hv'
        exact hc
      · cases hv.left.symm.trans hd.left
    case mpr => exact fun hf => hf.visit hv

-- A run loses no accepted byte exactly when each round that closes a socket because of the remote
-- end or a dropped receiver hands over all that was accepted, and nothing is sent afterwards.
theorem always_uploaded_iff (iface : Interface) (ls : List Label) :
    Lts.Always step Uploaded (init iface : State tier) ls ↔
      Lts.Admits step UploadsFirst (init iface : State tier) ls := by
  refine Lts.always_iff_admits (I := Inv View.Upload) ?_ ?_ (init_inv ⟨nofun, fun _ => prefix_rfl⟩ iface) ?_
  · exact fun s l s' hi _ h _ => step_upload hi h
  · exact fun s l s' hi hu h => step_uploaded_iff hi hu h
  · exact fun _ hr => nomatch hr

-- A byte is accepted, the remote end sends its FIN, and the next round of service closes the
-- socket while the byte still waits in the data channel.
def closedEarly : List Label :=
  opening ++ [.app (.send 1 [0]), .tcpMove 1 .fin, .endPoll [1], .visitTcp []]

theorem not_always_uploaded : ¬ Lts.Always step Uploaded (init {} : State .low) closedEarly := by
  intro h
  have hx : (Lts.exec step (init {} : State .low) closedEarly).any (fun s =>
      (s.log 1).closed && !(s.log 1).aborted && (s.log 1).accepted == [0] && (s.log 1).handed == []) := by
    decide +kernel
  have ⟨s, hs, hl⟩ := (Option.any_eq_true ..).mp hx
  have hu := h.last hs 1
  simp only [Bool.and_eq_true, beq_iff_eq, Bool.not_eq_true'] at hl
  have ⟨⟨⟨hc, ha⟩, hacc⟩, hh⟩ := hl
  have hp := hu (by simp [Log.ended, hc]) ha
  simp [hacc, hh] at hp

end State

end Engine.Netstack
