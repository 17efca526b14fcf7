import SoildTunnel.Engine.Outbound.Tcp

-- What a slot sends, and when it is given back.
namespace Engine.Outbound

open Rust Lts List

namespace TcpPipe

variable {p q r : TcpPipe} {quic : Quic} {recv : List Received}

-- Only the way to the application is different.
structure Inward (p q : TcpPipe) : Prop where
  eq : q = { p with toApp := q.toApp, slot := { p.slot with toApp := q.slot.toApp, remoteDone := q.slot.remoteDone } }
  closed : q.toApp.closed = p.toApp.closed
  done : p.slot.remoteDone = true → q.slot.remoteDone = true

theorem Inward.refl (p : TcpPipe) : Inward p p :=
  ⟨rfl, rfl, id⟩

theorem Inward.trans (h : Inward p q) (h' : Inward q r) : Inward p r where
  eq := by rw [h'.eq, h.eq]
  closed := h'.closed.trans h.closed
  done := h'.done ∘ h.done

theorem inward_endRemote (p : TcpPipe) : Inward p p.endRemote :=
  ⟨rfl, rfl, fun _ => rfl⟩

theorem inward_read (p : TcpPipe) (read : Bytes) :
    Inward p (if read = [] then p else { p with toApp := (p.toApp.trySend read).getD p.toApp }) := by
  split
  case isTrue => exact .refl p
  case isFalse => exact ⟨rfl, Mpsc.trySend_getD_closed .., id⟩

theorem inward_pumpInbound (p : TcpPipe) (recv : List Received) : Inward p (p.pumpInbound recv) := by
  fun_induction pumpInbound p recv
  case case3 => exact ⟨rfl, rfl, id⟩
  case case6 => exact inward_endRemote _
  case case7 => exact (inward_read _ _).trans (inward_endRemote _)
  case case8 ih => exact (inward_read _ _).trans ih
  all_goals exact .refl _

theorem inward_of_remoteDone (h : p.slot.remoteDone = true) : p.pumpInbound recv = p := by
  unfold pumpInbound
  exact if_pos (.inl h)

-- The bytes are on their way in the order in which they came, and the end comes last.
structure Flows (head : Bytes) (p : TcpPipe) : Prop where
  bytes : p.accepted ++ p.slot.pending ++ p.fromApp.queue.flatten = head ++ p.chunks.flatten
  fin : p.slot.fin = true → p.held = false ∧ p.fromApp.queue = []
  finished : p.finished = true → p.slot.fin = true ∧ p.slot.finSent = true ∧ p.slot.pending = []

variable {head : Bytes}

theorem Flows.collect (h : p.Flows head) : p.collect.Flows head where
  bytes := by simpa [TcpPipe.collect, Mpsc.take] using h.bytes
  fin hf := by
    refine ⟨?_, by simp [TcpPipe.collect, Mpsc.take]⟩
    rcases Bool.or_eq_true .. |>.mp hf with hf | hf
    · exact (h.fin hf).left
    · exact Bool.not_eq_true' _ |>.mp hf
  finished hf := by
    obtain ⟨hf, hs, hp⟩ := h.finished hf
    simp [TcpPipe.collect, hf, hs, hp, (h.fin hf).right]

inductive Offered (p : TcpPipe) : TcpPipe → Prop
  | nothing : Offered p p
  | taken (n take : Nat) :
    Offered p { p with
      slot := { p.slot with
        pending := p.slot.pending.drop (min n take)
        finSent := p.slot.finSent || (p.slot.fin && take = p.slot.pending.length) }
      accepted := p.accepted ++ p.slot.pending.take (min n take)
      finished := p.finished || ((p.slot.fin && take = p.slot.pending.length) && min n take = take) }
  | failed : Offered p { p with slot := { p.slot with pending := [], fin := true }, failed := true }

-- What the sending half of a stream has nothing to do with.
structure Kept (p q : TcpPipe) : Prop where
  stream : q.stream = p.stream
  host : q.host = p.host
  port : q.port = p.port
  toApp : q.toApp = p.toApp
  remoteDone : q.slot.remoteDone = p.slot.remoteDone
  reports : q.reports = p.reports

theorem Offered.kept (h : Offered p q) : Kept p q := by
  cases h <;> exact ⟨rfl, rfl, rfl, rfl, rfl, rfl⟩

theorem offered (p : TcpPipe) (quic : Quic) : Offered p (p.offer quic) := by
  unfold offer
  dsimp only
  split
  case isTrue => exact .nothing
  case isFalse =>
    split
    case isTrue => exact .nothing
    case isFalse =>
      split
      case h_1 n _ => exact .taken n _
      case h_2 => exact .nothing
      case h_3 => exact .failed

theorem Flows.offered (h : p.Flows head) (ho : Offered p q) (hf : q.failed = false) : q.Flows head := by
  cases ho
  case nothing => exact h
  case failed => cases hf
  case taken n take =>
    refine ⟨?_, h.fin, fun hd => ?_⟩
    case refine_1 => simpa [append_assoc] using h.bytes
    case refine_2 =>
      rcases Bool.or_eq_true .. |>.mp hd with hd | hd
      · obtain ⟨h₁, h₂, h₃⟩ := h.finished hd
        simp [h₁, h₂, h₃]
      · simp only [Bool.and_eq_true, decide_eq_true_eq] at hd
        obtain ⟨⟨h₁, h₂⟩, h₃⟩ := hd
        have hn : p.slot.pending.length ≤ n := by omega
        simp [h₁, h₂, hn]

theorem Flows.inward (h : p.Flows head) (hi : Inward p q) : q.Flows head := by
  rw [hi.eq]
  exact ⟨h.bytes, h.fin, h.finished⟩

theorem failed_of_offered (ho : Offered p q) (hf : q.failed = false) : p.failed = false := by
  cases ho
  case nothing => exact hf
  case taken => exact hf
  case failed => cases hf

theorem turn_eq (p : TcpPipe) (quic : Quic) :
    ∃ q, Offered p.collect q ∧ ∃ r, Inward q r ∧ ∃ removed reports, p.turn quic = { r with removed, reports } :=
  ⟨_, offered _ quic, _, inward_pumpInbound _ quic.recv, _, _, rfl⟩

-- An application acts at its ends of the channels.
inductive Acts (i : Nat) (p : TcpPipe) : TcpLabel → TcpPipe → Prop
  | send {chunk : Bytes} {fromApp : Mpsc Bytes CHANNEL_DEPTH} : p.held = true → p.fromApp.trySend chunk = some fromApp →
    Acts i p (.send i chunk) { p with fromApp, chunks := p.chunks ++ [chunk] }
  | close : Acts i p (.close i) { p with held := false }
  | recv {toApp : Mpsc Bytes CHANNEL_DEPTH} : toApp.closed = p.toApp.closed → Acts i p (.recv i) { p with toApp }
  | dropReceiver : Acts i p (.dropReceiver i) { p with toApp := p.toApp.dropReceiver }

-- The header of the pipe, and what of it and the chunks has got where.
def Sends (p : TcpPipe) : Prop :=
  ∃ head, connectHeader p.host p.port = .ok head ∧ (p.failed = false → p.Flows head)

theorem Sends.turn (h : p.Sends) (quic : Quic) : (p.turn quic).Sends := by
  obtain ⟨head, hh, hflow⟩ := h
  obtain ⟨q, ho, r, hi, removed, reports, ht⟩ := turn_eq p quic
  have he : r.host = p.host ∧ r.port = p.port ∧ r.failed = q.failed := by
    rw [hi.eq]
    exact ⟨ho.kept.host, ho.kept.port, rfl⟩
  rw [ht]
  refine ⟨head, he.left ▸ he.right.left ▸ hh, fun hf => ?_⟩
  have hf : q.failed = false := he.right.right ▸ hf
  have hc : p.collect.failed = false := failed_of_offered ho hf
  have hr : r.Flows head := ((hflow hc).collect.offered ho hf).inward hi
  exact ⟨hr.bytes, hr.fin, hr.finished⟩

theorem Sends.acts {i : Nat} {l : TcpLabel} (h : p.Sends) (ha : Acts i p l q) : q.Sends := by
  obtain ⟨head, hh, hflow⟩ := h
  cases ha
  case send chunk fromApp held hs =>
    obtain ⟨-, -, hq, -⟩ := Mpsc.trySend_eq_some hs
    refine ⟨head, hh, fun hf => ?_⟩
    have h := hflow hf
    refine ⟨?_, fun hfin => ?_, h.finished⟩
    · rw [hq, flatten_concat, flatten_concat, ← append_assoc, h.bytes, append_assoc]
    · rw [(h.fin hfin).left] at held
      cases held
  case close =>
    refine ⟨head, hh, fun hf => ?_⟩
    have h := hflow hf
    exact ⟨h.bytes, fun hfin => ⟨rfl, (h.fin hfin).right⟩, h.finished⟩
  case recv => exact ⟨head, hh, fun hf => ⟨(hflow hf).bytes, (hflow hf).fin, (hflow hf).finished⟩⟩
  case dropReceiver => exact ⟨head, hh, fun hf => ⟨(hflow hf).bytes, (hflow hf).fin, (hflow hf).finished⟩⟩

end TcpPipe

namespace TcpSession

variable {streamLimit : Nat} {s s' : TcpSession} {l : TcpLabel}

def fresh (s : TcpSession) (command : OpenTcp) (head : Bytes) : TcpPipe where
  stream := s.nextStream
  host := command.host
  port := command.port
  slot := { pending := head }

theorem openTcp_cases (s : TcpSession) (command : OpenTcp) :
    s.openTcp command = s ∨ ∃ head, connectHeader command.host command.port = .ok head ∧
      s.openTcp command = { pipes := s.pipes ++ [s.fresh command head], nextStream := s.nextStream + 4 } := by
  unfold openTcp openStream
  cases hh : connectHeader command.host command.port
  case error => exact .inl rfl
  case ok head =>
    cases command.opened
    case false => exact .inl rfl
    case true => exact .inr ⟨head, rfl, rfl⟩

theorem turn_cases (command : Option OpenTcp) (quic : Nat → Quic) :
    s.turn streamLimit command quic = s ∨ s.turn streamLimit command quic = s.pump quic ∨
      ∃ c ∈ command, ∃ head, connectHeader c.host c.port = .ok head ∧
        s.turn streamLimit command quic =
          pump { pipes := s.pipes ++ [s.fresh c head], nextStream := s.nextStream + 4 } quic := by
  cases command
  case none => exact .inr (.inl rfl)
  case some c =>
    by_cases hl : streamLimit ≤ s.slots.length
    case pos => exact .inl (if_pos hl)
    case neg =>
      have ht : s.turn streamLimit (some c) quic = (s.openTcp c).pump quic := if_neg hl
      rw [ht]
      rcases openTcp_cases s c with he | ⟨head, hh, he⟩
      · exact .inr (.inl (by rw [he]))
      · exact .inr (.inr ⟨c, rfl, head, hh, by rw [he]⟩)

theorem atPipe_eq_some {i : Nat} {f : TcpPipe → Option TcpPipe} (h : s.atPipe i f = some s') :
    ∃ p q, s.pipes[i]? = some p ∧ p.removed = false ∧ f p = some q ∧ s' = { s with pipes := s.pipes.set i q } := by
  obtain ⟨p, hp, h⟩ := Option.bind_eq_some_iff.mp h
  obtain ⟨hr, h⟩ := Option.ite_none_left_eq_some.mp h
  obtain ⟨q, hq, rfl⟩ := Option.map_eq_some_iff.mp h
  exact ⟨p, q, hp, by simpa using hr, hq, rfl⟩

theorem step_cases (h : step streamLimit s l = some s') :
    (∃ command quic, l = .turn command quic ∧ s' = s.turn streamLimit command quic) ∨
      ∃ i p q, s.pipes[i]? = some p ∧ p.removed = false ∧ TcpPipe.Acts i p l q ∧ s' = { s with pipes := s.pipes.set i q } := by
  cases l
  case turn command quic =>
    cases h
    exact .inl ⟨command, quic, rfl, rfl⟩
  case send i chunk =>
    obtain ⟨p, q, hp, hr, hq, hs⟩ := atPipe_eq_some h
    obtain ⟨held, hq⟩ := Option.ite_none_right_eq_some.mp hq
    obtain ⟨fromApp, hf, rfl⟩ := Option.map_eq_some_iff.mp hq
    exact .inr ⟨i, p, _, hp, hr, .send held hf, hs⟩
  case close i =>
    obtain ⟨p, q, hp, hr, hq, hs⟩ := atPipe_eq_some h
    cases hq
    exact .inr ⟨i, p, _, hp, hr, .close, hs⟩
  case recv i =>
    obtain ⟨p, q, hp, hr, hq, hs⟩ := atPipe_eq_some h
    obtain ⟨⟨chunk, toApp⟩, ht, rfl⟩ := Option.map_eq_some_iff.mp hq
    exact .inr ⟨i, p, _, hp, hr, .recv (Mpsc.recv_eq_some ht).right, hs⟩
  case dropReceiver i =>
    obtain ⟨p, q, hp, hr, hq, hs⟩ := atPipe_eq_some h
    cases hq
    exact .inr ⟨i, p, _, hp, hr, .dropReceiver, hs⟩

theorem forall_pump {I : TcpPipe → Prop} {quic : Nat → Quic} (hi : ∀ p ∈ s.pipes, I p)
    (ht : ∀ p ∈ s.pipes, I p → p.removed = false → I (p.turn (quic p.stream))) : ∀ p ∈ (s.pump quic).pipes, I p := by
  intro q hq
  obtain ⟨p, hp, rfl⟩ := mem_map.mp hq
  split
  case isTrue => exact hi p hp
  case isFalse hr => exact ht p hp (hi p hp) (by simpa using hr)

theorem forall_step {I : TcpPipe → Prop} (h : step streamLimit s l = some s') (hi : ∀ p ∈ s.pipes, I p)
    (hnew : ∀ command head, connectHeader command.host command.port = .ok head → I (s.fresh command head))
    (hturn : ∀ command quic p, l = .turn command quic → (p ∈ s.pipes ∨ p.held = true) → I p → p.removed = false →
      I (p.turn (quic p.stream)))
    (hacts : ∀ i p q, s.pipes[i]? = some p → I p → p.removed = false → TcpPipe.Acts i p l q → I q) : ∀ p ∈ s'.pipes, I p := by
  obtain ⟨command, quic, rfl, rfl⟩ | ⟨i, p, q, hp, hr, ha, rfl⟩ := step_cases h
  case inl =>
    rcases turn_cases (s := s) command quic with he | he | ⟨c, -, head, hh, he⟩
    · rw [he]
      exact hi
    · rw [he]
      exact forall_pump hi fun p hp => hturn command quic p rfl (.inl hp)
    · rw [he]
      refine forall_pump (fun p hp => ?_) fun p hp => hturn command quic p rfl ?_
      all_goals rcases mem_append.mp hp with hp | hp
      · exact hi p hp
      · exact mem_singleton.mp hp ▸ hnew c head hh
      · exact .inl hp
      · exact .inr (mem_singleton.mp hp ▸ rfl)
  case inr =>
    intro r hm
    rcases mem_or_eq_of_mem_set hm with hm | rfl
    · exact hi r hm
    · exact hacts i p r hp (hi p (mem_of_getElem? hp)) hr ha

-- What the stream has taken is the beginning of what the pipe has to send, and its end comes after all
-- of it, once the application has closed its side.
def Uploads (p : TcpPipe) : Prop :=
  ∃ head, connectHeader p.host p.port = .ok head ∧
    (p.failed = false → p.accepted <+: head ++ p.chunks.flatten ∧
      (p.finished = true → p.held = false ∧ p.accepted = head ++ p.chunks.flatten))

structure Orderly (s : TcpSession) : Prop where
  uploads : ∀ p ∈ s.pipes, Uploads p
  nodup : (s.pipes.map (·.stream)).Nodup
  four : ∀ p ∈ s.pipes, 4 ∣ p.stream

theorem uploads_of_sends {p : TcpPipe} (h : p.Sends) : Uploads p := by
  obtain ⟨head, hh, hflow⟩ := h
  refine ⟨head, hh, fun hf => ⟨?_, fun hd => ?_⟩⟩
  · rw [← (hflow hf).bytes, append_assoc]
    exact prefix_append _ _
  · obtain ⟨hfin, -, hp⟩ := (hflow hf).finished hd
    obtain ⟨held, hq⟩ := (hflow hf).fin hfin
    exact ⟨held, by simpa [hp, hq] using (hflow hf).bytes⟩

theorem stream_turn (p : TcpPipe) (quic : Quic) : (p.turn quic).stream = p.stream := by
  obtain ⟨q, ho, r, hi, removed, reports, ht⟩ := TcpPipe.turn_eq p quic
  rw [ht, hi.eq]
  exact ho.kept.stream

theorem streams_pump (quic : Nat → Quic) : (s.pump quic).pipes.map (·.stream) = s.pipes.map (·.stream) := by
  rw [pump, map_map]
  refine map_congr_left fun p _ => ?_
  simp only [Function.comp_apply]
  split
  case isTrue => rfl
  case isFalse => exact stream_turn p _

theorem streams_step (h : step streamLimit s l = some s') :
    (s'.pipes.map (·.stream) = s.pipes.map (·.stream) ∧ s'.nextStream = s.nextStream) ∨
      s'.pipes.map (·.stream) = s.pipes.map (·.stream) ++ [s.nextStream] ∧ s'.nextStream = s.nextStream + 4 := by
  obtain ⟨command, quic, rfl, rfl⟩ | ⟨i, p, q, hp, -, ha, rfl⟩ := step_cases h
  case inl =>
    rcases turn_cases (s := s) command quic with he | he | ⟨c, -, head, hh, he⟩
    · rw [he]
      exact .inl ⟨rfl, rfl⟩
    · rw [he, streams_pump]
      exact .inl ⟨rfl, rfl⟩
    · rw [he, streams_pump]
      exact .inr ⟨by simp [fresh], rfl⟩
  case inr =>
    have hq : q.stream = p.stream := by cases ha <;> rfl
    refine .inl ⟨ext_getElem? fun j => ?_, rfl⟩
    rw [List.getElem?_map, List.getElem?_map]
    by_cases hj : i = j
    case pos => simp [← hj, List.getElem?_set_self (List.getElem?_eq_some_iff.mp hp).1, hp, hq]
    case neg => rw [List.getElem?_set_ne hj]

structure Numbered (s : TcpSession) : Prop where
  sends : ∀ p ∈ s.pipes, p.Sends
  nodup : (s.pipes.map (·.stream)).Nodup
  lt : ∀ n ∈ s.pipes.map (·.stream), n < s.nextStream ∧ 4 ∣ n
  four : 4 ∣ s.nextStream

theorem Numbered.orderly (h : s.Numbered) : s.Orderly where
  uploads p hp := uploads_of_sends (h.sends p hp)
  nodup := h.nodup
  four p hp := (h.lt p.stream (mem_map_of_mem hp)).right

theorem sends_fresh (command : OpenTcp) {head : Bytes} (h : connectHeader command.host command.port = .ok head) :
    (s.fresh command head).Sends :=
  ⟨head, h, fun _ => ⟨by simp [fresh], nofun, nofun⟩⟩

theorem Numbered.step (h : s.Numbered) (hs : step streamLimit s l = some s') : s'.Numbered := by
  have hsends : ∀ p ∈ s'.pipes, p.Sends :=
    forall_step hs h.sends (fun command _ hh => sends_fresh command hh) (fun _ quic p _ _ hp _ => hp.turn (quic p.stream))
      (fun _ _ _ _ hp _ ha => hp.acts ha)
  rcases streams_step hs with ⟨hm, hn⟩ | ⟨hm, hn⟩
  case inl =>
    exact ⟨hsends, hm ▸ h.nodup, fun n hmem => hn ▸ h.lt n (hm ▸ hmem), hn ▸ h.four⟩
  case inr =>
    refine ⟨hsends, ?_, fun n hmem => ?_, ?_⟩
    · rw [hm, nodup_append]
      refine ⟨h.nodup, nodup_singleton _, fun a ha b hb he => ?_⟩
      have := (h.lt a ha).left
      rw [he, mem_singleton.mp hb] at this
      omega
    · rw [hm] at hmem
      rcases mem_append.mp hmem with hmem | hmem
      · have := h.lt n hmem
        omega
      · rw [mem_singleton.mp hmem]
        have := h.four
        omega
    · rw [hn]
      exact dvd_add h.four (dvd_refl 4)

-- In every run, and with every pattern of capacities and partial writes.
theorem always_orderly (streamLimit : Nat) (run : List TcpLabel) : Always (step streamLimit) Orderly {} run := by
  refine always_iff.mpr fun past _ s _ hx => ?_
  have h₀ : Numbered {} := ⟨fun _ => nofun, nodup_nil, fun _ => nofun, dvd_zero 4⟩
  exact (exec_invariant (fun _ _ _ hi hs => Numbered.step hi hs) h₀ hx).orderly

-- The stream takes all that is left, and the end with it.
def TakesAll (p : TcpPipe) (quic : Quic) : Prop :=
  match quic.send with
  | .ok n => (p.slot.pending ++ p.fromApp.queue.flatten).length ≤ min n (quic.capacity.getD 0)
  | .done | .error => False

-- An application stops listening only when the other side has ended, and when the stream of an
-- application that has left has reported an end `n` times, it takes the rest of what is left to send
-- with the next time.
def Drained (n : Nat) (s : TcpSession) : TcpLabel → Prop
  | .dropReceiver i => ∀ p ∈ s.pipes[i]?, p.removed = false → p.slot.remoteDone = true
  | .turn _ quic => ∀ p ∈ s.pipes, p.removed = false → p.Orphaned → (quic p.stream).Reports → n ≤ p.reports →
    TakesAll p (quic p.stream)
  | .send .. | .close _ | .recv _ => True

-- No slot stays for more than `n` turns in which its stream reports to an application that has left.
def Reclaimed (n : Nat) (s : TcpSession) : Prop :=
  ∀ p ∈ s.slots, p.reports ≤ n

-- An application that does not listen any more has seen the end.
structure Waits (n : Nat) (p : TcpPipe) : Prop where
  reports : p.removed = false → p.reports ≤ n
  closed : p.toApp.closed = true → p.slot.remoteDone = true

section Reclaim

variable {n : Nat} {p : TcpPipe} {quic : Quic}

theorem offer_of_takesAll (h : TakesAll p quic) (held : p.held = false) :
    (p.collect.offer quic).slot.pending = [] ∧ (p.collect.offer quic).slot.finSent = true := by
  have hfin : p.collect.slot.fin = true := by simp [TcpPipe.collect, held]
  obtain ⟨n, hs, hl⟩ : ∃ n, quic.send = .ok n ∧ p.collect.slot.pending.length ≤ min n (quic.capacity.getD 0) := by
    unfold TakesAll at h
    split at h
    case h_1 n hs => exact ⟨n, hs, h⟩
    all_goals cases h
  unfold TcpPipe.offer
  dsimp only
  split
  case isTrue hz => exact ⟨hz.left, by simpa [hfin] using hz.right⟩
  case isFalse =>
    rw [if_neg (fun hc => hc.right (eq_nil_of_length_eq_zero (by omega))), hs]
    have ht : min (quic.capacity.getD 0) p.collect.slot.pending.length = p.collect.slot.pending.length := by omega
    have hn : p.collect.slot.pending.length ≤ n := by omega
    simp [ht, hn, hfin]

theorem removed_of_reports (h : Waits n p) (ho : p.Orphaned) (ht : TakesAll p quic) : (p.turn quic).removed = true := by
  obtain ⟨hp, hf⟩ := offer_of_takesAll ht ho.left
  have hd : (p.collect.offer quic).slot.remoteDone = true := by
    rw [(TcpPipe.offered p.collect quic).kept.remoteDone]
    exact h.closed ho.right
  rw [TcpPipe.turn, TcpPipe.pumpOutbound, TcpPipe.inward_of_remoteDone hd]
  simp only [hd, hp, hf, decide_true, Bool.and_true]

theorem Waits.turn (h : Waits n p) (hr : p.removed = false)
    (ht : p.Orphaned → quic.Reports → n ≤ p.reports → TakesAll p quic) : Waits n (p.turn quic) := by
  have hk := (TcpPipe.offered p.collect quic).kept
  have hi := TcpPipe.inward_pumpInbound (p.collect.offer quic) quic.recv
  refine ⟨fun hq => ?_, fun hc => hi.done ?_⟩
  case refine_1 =>
    have hreports : ((p.collect.offer quic).pumpInbound quic.recv).reports = p.reports := by
      rw [hi.eq]
      exact hk.reports
    by_cases hn : p.Orphaned ∧ quic.Reports = true
    case pos =>
      -- After the last of the turns the slot would be gone.
      have hlt : p.reports < n := by
        by_contra hle
        rw [removed_of_reports h hn.1 (ht hn.1 hn.2 (not_lt.mp hle))] at hq
        cases hq
      have he : (p.turn quic).reports = ((p.collect.offer quic).pumpInbound quic.recv).reports + 1 := if_pos hn
      omega
    case neg =>
      have he : (p.turn quic).reports = ((p.collect.offer quic).pumpInbound quic.recv).reports := if_neg hn
      rw [he, hreports]
      exact h.reports hr
  case refine_2 =>
    rw [hk.remoteDone]
    refine h.closed ?_
    have hc : ((p.collect.offer quic).pumpInbound quic.recv).toApp.closed = true := hc
    rwa [hi.closed, hk.toApp] at hc

theorem Waits.acts {i : Nat} {q : TcpPipe} (h : Waits n p) (hd : Drained n s l) (hp : s.pipes[i]? = some p)
    (hr : p.removed = false) (ha : TcpPipe.Acts i p l q) : Waits n q := by
  cases ha
  case send => exact ⟨h.reports, h.closed⟩
  case close => exact ⟨h.reports, h.closed⟩
  case recv hc => exact ⟨h.reports, fun hq => h.closed (hc ▸ hq)⟩
  case dropReceiver => exact ⟨h.reports, fun _ => hd p hp hr⟩

end Reclaim

theorem always_reclaimed (streamLimit n : Nat) (run : List TcpLabel)
    (h : Admits (step streamLimit) (Drained n) {} run) : Always (step streamLimit) (Reclaimed n) {} run := by
  refine always_of_admits (I := fun s => ∀ p ∈ s.pipes, Waits n p) (fun s l s' hi hd hs => ?_) (fun s hi p hp => ?_)
    (fun _ => nofun) h
  · refine forall_step hs hi (fun _ _ _ => ⟨fun _ => Nat.zero_le n, nofun⟩) ?_ (fun i p q hp hw hr ha => hw.acts hd hp hr ha)
    rintro command quic p rfl hp hw hr
    refine hw.turn hr fun ho hreports hn => ?_
    rcases hp with hp | held
    · exact hd p hp hr ho hreports hn
    · rw [ho.left] at held
      cases held
  · obtain ⟨hp, hr⟩ := mem_filter.mp hp
    exact (hi p hp).reports (by simpa using hr)

instance {p : TcpPipe} {quic : Quic} : Decidable (TakesAll p quic) :=
  match h : quic.send with
  | .ok n => decidable_of_iff ((p.slot.pending ++ p.fromApp.queue.flatten).length ≤ min n (quic.capacity.getD 0))
      (by rw [TakesAll, h])
  | .done => isFalse (by rw [TakesAll, h]; exact id)
  | .error => isFalse (by rw [TakesAll, h]; exact id)

instance {n : Nat} : Decidable (Drained n s l) :=
  match l with
  | .dropReceiver i => inferInstanceAs (Decidable (∀ p ∈ s.pipes[i]?, _ → _))
  | .turn _ quic => inferInstanceAs (Decidable (∀ p ∈ s.pipes, p.removed = false → p.Orphaned →
    (quic p.stream).Reports → n ≤ p.reports → TakesAll p (quic p.stream)))
  | .send .. | .close _ | .recv _ => isTrue trivial

def healthy : Quic := ⟨some 100, .ok 100, []⟩

def ended : Quic := ⟨some 100, .ok 100, [.data [] true]⟩

def broken : Quic := ⟨none, .error, [.error]⟩

def opening : TcpLabel := .turn (some ⟨"a".toList, 80, true⟩) fun _ => healthy

-- The stream has room for one byte at first, and then for the rest.
def served : List TcpLabel :=
  [opening, .turn none fun _ => ended, .send 0 [1, 2], .dropReceiver 0, .close 0,
    .turn none fun _ => { ended with capacity := some 1 }, .turn none fun _ => ended]

theorem always_reclaimed_served : Admits (step 64) (Drained 1) {} served ∧ Always (step 64) (Reclaimed 1) {} served ∧
      (exec (step 64) {} served).map (·.slots.length) = some 0 :=
  have h : Admits (step 64) (Drained 1) {} served := by decide +kernel
  ⟨h, always_reclaimed 64 1 served h, by decide +kernel⟩

-- The slot after the stream has failed, when its application had already left.
def stuck (reports : Nat) : TcpSession where
  pipes := [{
    stream := 0
    host := "a".toList
    port := 80
    toApp := Mpsc.empty.dropReceiver
    held := false
    slot := { toApp := false, pending := [], fin := true }
    accepted := [TUIC_VERSION, CMD_CONNECT, ADDR_NAME, 1, 97, 0, 80]
    failed := true
    reports }]
  nextStream := 4

theorem exec_broken : exec (step 64) {} [opening, .close 0, .dropReceiver 0, .turn none fun _ => broken] = some (stuck 1) := by
  decide +kernel

theorem step_stuck (k : Nat) : step 64 (stuck k) (.turn none fun _ => broken) = some (stuck (k + 1)) := rfl

theorem exec_stuck (n k : Nat) :
    exec (step 64) (stuck k) (List.replicate n (.turn none fun _ => broken)) = some (stuck (k + n)) := by
  induction n generalizing k
  case zero => rfl
  case succ n ih =>
    rw [replicate_succ, exec_cons, step_stuck, Option.bind_some, ih, Nat.add_assoc, Nat.add_comm 1]

-- However long the stream goes on reporting, the slot stays.
theorem not_always_reclaimed : ¬ ∃ n, ∀ run, Always (step 64) (Reclaimed n) {} run := by
  rintro ⟨n, h⟩
  have hx : exec (step 64) {} ([opening, .close 0, .dropReceiver 0, .turn none fun _ => broken] ++
      List.replicate n (.turn none fun _ => broken)) = some (stuck (1 + n)) := by
    rw [exec_append, exec_broken, Option.bind_some, exec_stuck]
  have hr := (h _).last hx _ (mem_singleton_self _)
  have hk : 1 + n ≤ n := hr
  omega

end TcpSession

end Engine.Outbound
