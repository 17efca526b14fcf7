import SoildTunnel.Engine.LastConn

-- Whether the list of avoided gateways is that of the gateways that were reported lately.
namespace Engine.LastConn

open List

variable {entries : List AvoidEntry} {peers : List SocketAddr} {p peer : SocketAddr} {now now' : Nat}

def Listed (entries : List AvoidEntry) (p : SocketAddr) (now : Nat) : Prop :=
  ∃ e ∈ entries, e.peer = p ∧ e.isFresh now

theorem mem_loadAvoided : p ∈ loadAvoided entries now ↔ Listed entries p now := by
  simp only [loadAvoided, mem_map, mem_filter, Listed]
  constructor
  case mp =>
    rintro ⟨e, ⟨he, hf⟩, hp⟩
    exact ⟨e, he, hp, hf⟩
  case mpr =>
    rintro ⟨e, he, hp, hf⟩
    exact ⟨e, ⟨he, hf⟩, hp⟩

variable {e : AvoidEntry}

theorem isFresh_mono (h : e.isFresh now') (hn : now ≤ now') : e.isFresh now := by
  simp only [AvoidEntry.isFresh, decide_eq_true_eq] at h ⊢
  omega

theorem Listed.mono (h : Listed entries p now') (hn : now ≤ now') : Listed entries p now := by
  obtain ⟨e, he, hp, hf⟩ := h
  exact ⟨e, he, hp, isFresh_mono hf hn⟩

instance Listed.decidable : Decidable (Listed entries p now) :=
  inferInstanceAs (Decidable (∃ e ∈ entries, _))

section Save

theorem mem_addAvoided : e ∈ addAvoided now entries peer ↔
    e ∈ entries ∨ e = ⟨peer, now⟩ ∧ ∀ d ∈ entries, d.peer ≠ peer := by
  unfold addAvoided
  split
  case isTrue h =>
    obtain ⟨d, hd, hp⟩ := any_eq_true.mp h
    refine ⟨.inl, fun h => h.resolve_right fun ⟨_, hn⟩ => hn d hd (of_decide_eq_true hp)⟩
  case isFalse h =>
    have hn : ∀ d ∈ entries, d.peer ≠ peer := by simpa using h
    rw [mem_append, mem_singleton, and_iff_left hn]

theorem mem_foldl_addAvoided : e ∈ peers.foldl (addAvoided now) entries ↔
    e ∈ entries ∨ e.since = now ∧ e.peer ∈ peers ∧ ∀ d ∈ entries, d.peer ≠ e.peer := by
  induction peers generalizing entries
  case nil => simp
  case cons peer peers hi =>
    rw [foldl_cons, hi, mem_addAvoided]
    constructor
    case mp =>
      rintro ((he | ⟨rfl, hn⟩) | ⟨ht, hp, hn⟩)
      · exact .inl he
      · exact .inr ⟨rfl, mem_cons_self, hn⟩
      · exact .inr ⟨ht, mem_cons_of_mem _ hp, fun d hd => hn d (mem_addAvoided.mpr (.inl hd))⟩
    case mpr =>
      rintro (he | ⟨ht, hp, hn⟩)
      · exact .inl (.inl he)
      · by_cases hpeer : e.peer = peer
        case pos => exact .inl (.inr ⟨by rw [← hpeer, ← ht], hpeer ▸ hn⟩)
        case neg =>
          refine .inr ⟨ht, (mem_cons.mp hp).resolve_left hpeer, fun d hd => ?_⟩
          rcases mem_addAvoided.mp hd with hd | ⟨rfl, -⟩
          case inl => exact hn d hd
          case inr => exact Ne.symm hpeer

theorem listed_saveAvoided (hn : now ≤ now') : Listed (saveAvoided entries peers now) p now' ↔
    Listed entries p now' ∨ p ∈ peers ∧ ¬ Listed entries p now ∧ now' - now < AVOID_TTL_SECS := by
  simp only [Listed, saveAvoided, mem_foldl_addAvoided, mem_filter]
  constructor
  case mp =>
    rintro ⟨e, ⟨he, -⟩ | ⟨rfl, hp, hd⟩, rfl, hf⟩
    case inl => exact .inl ⟨e, he, rfl, hf⟩
    case inr => exact .inr ⟨hp, fun ⟨d, hm, hdp, hdf⟩ => hd d ⟨hm, hdf⟩ hdp, of_decide_eq_true hf⟩
  case mpr =>
    rintro (⟨e, he, hp, hf⟩ | ⟨hp, hl, ht⟩)
    case inl => exact ⟨e, .inl ⟨he, isFresh_mono hf hn⟩, hp, hf⟩
    case inr =>
      exact ⟨⟨p, now⟩, .inr ⟨rfl, hp, fun d hd hdp => hl ⟨d, hd.1, hdp, hd.2⟩⟩, rfl, decide_eq_true ht⟩

end Save

namespace State

variable {s s' : State} {l : Nat × Event}

-- The list is right now, and stays right as long as nothing is reported.
def Exact (s : State) : Prop :=
  ∀ now ≥ s.clock, ∀ p, p ∈ loadAvoided s.entries now ↔ ∃ t ∈ s.lastReport p, now - t < AVOID_TTL_SECS

-- A gateway that is reported is no longer on the list, or was put there in this very second; and all
-- the others that the run avoids still are.
def Renewed (s : State) : Nat × Event → Prop
  | (_, .start _) => True
  | (now, .iranianEgress peer) => ∀ r ∈ s.run,
    (Listed s.entries peer now → ∃ e ∈ s.entries, e.peer = peer ∧ e.since = now) ∧
      ∀ p ∈ r.avoid, p ≠ peer → Listed s.entries p now

def Recent (s : State) (p : SocketAddr) (now : Nat) : Prop :=
  ∃ t ∈ s.lastReport p, now - t < AVOID_TTL_SECS

def Past (s : State) : Prop :=
  ∀ e ∈ s.entries, e.since ≤ s.clock

theorem exact_iff : s.Exact ↔ ∀ now ≥ s.clock, ∀ p, Listed s.entries p now ↔ s.Recent p now := by
  simp only [Exact, mem_loadAvoided, Recent]

variable {r : Run}

theorem Past.step (h : s.Past) (hs : s.step l = some s') : s'.Past := by
  obtain ⟨now, event⟩ := l
  cases event
  case start forced =>
    simp only [State.step] at hs
    split at hs <;> cases hs
    case isTrue hc => exact fun e he => (h e he).trans hc
  case iranianEgress peer =>
    obtain ⟨r, -, hs⟩ := Option.bind_eq_some_iff.mp hs
    split at hs <;> cases hs
    case isTrue hc =>
      intro e he
      rcases mem_foldl_addAvoided.mp he with he | ⟨ht, -⟩
      case inl => exact (h e (mem_filter.mp he).1).trans hc.1
      case inr => exact ht.le

theorem mem_avoid : p ∈ (if peer ∈ r.avoid then r.avoid else peer :: r.avoid) ↔ p = peer ∨ p ∈ r.avoid := by
  split
  case isTrue h => exact ⟨.inr, fun hp => hp.elim (· ▸ h) id⟩
  case isFalse => exact mem_cons

theorem listed_report (hn : now ≤ now') : Listed (s.report r peer now).entries p now' ↔ Listed s.entries p now' ∨
      (p = peer ∨ p ∈ r.avoid) ∧ ¬ Listed s.entries p now ∧ now' - now < AVOID_TTL_SECS := by
  rw [← mem_avoid (r := r)]
  exact listed_saveAvoided hn

theorem recent_report_self : (s.report r peer now).Recent peer now' ↔ now' - now < AVOID_TTL_SECS := by
  simp [Recent, report]

theorem recent_report_ne (h : p ≠ peer) : (s.report r peer now).Recent p now' ↔ s.Recent p now' := by
  simp [Recent, report, h]

-- The gateway that is reported counts from now on only if no entry of its own is in the way.
theorem listed_report_self_iff (hp : s.Past) (hc : s.clock ≤ now) :
    (∀ now' ≥ now, Listed (s.report r peer now).entries peer now' ↔ now' - now < AVOID_TTL_SECS) ↔
      (Listed s.entries peer now → ∃ e ∈ s.entries, e.peer = peer ∧ e.since = now) := by
  constructor
  case mp =>
    -- An older entry is gone in the last second of the new one.
    intro h hl
    have ht : now + AVOID_TTL_SECS - 1 ≥ now := by simp [AVOID_TTL_SECS]
    have hr := (h _ ht).mpr (by simp [AVOID_TTL_SECS])
    obtain ⟨e, he, hep, hf⟩ := ((listed_report ht).mp hr).resolve_right fun hn => hn.2.1 hl
    refine ⟨e, he, hep, ?_⟩
    have hs := hp e he
    have hf : now + AVOID_TTL_SECS - 1 - e.since < AVOID_TTL_SECS := of_decide_eq_true hf
    omega
  case mpr =>
    intro h now' hn
    rw [listed_report hn]
    by_cases hl : Listed s.entries peer now
    case pos =>
      obtain ⟨e, he, hep, ht⟩ := h hl
      constructor
      case mp =>
        rintro (⟨d, hd, -, hf⟩ | ⟨-, hn, -⟩)
        case inl =>
          have hs := hp d hd
          simp only [AvoidEntry.isFresh, decide_eq_true_eq] at hf
          omega
        case inr => exact absurd hl hn
      case mpr => exact fun hf => .inl ⟨e, he, hep, decide_eq_true (ht ▸ hf)⟩
    case neg =>
      constructor
      case mp => exact fun h => h.elim (fun h => absurd (h.mono hn) hl) fun h => h.2.2
      case mpr => exact fun hf => .inr ⟨.inl rfl, hl, hf⟩

-- Any other that the run avoids and that is no longer listed is put back.
theorem listed_report_ne_iff (he : s.Exact) (hc : s.clock ≤ now) (hp : p ≠ peer) :
    (∀ now' ≥ now, Listed (s.report r peer now).entries p now' ↔ s.Recent p now') ↔
      (p ∈ r.avoid → Listed s.entries p now) := by
  rw [exact_iff] at he
  constructor
  case mp =>
    intro h ha
    by_contra hn
    have hl : Listed (s.report r peer now).entries p now :=
      (listed_report le_rfl).mpr (.inr ⟨.inr ha, hn, by simp [AVOID_TTL_SECS]⟩)
    exact hn ((he now hc p).mpr ((h now le_rfl).mp hl))
  case mpr =>
    intro h now' hn
    rw [listed_report hn, ← he now' (hc.trans hn) p]
    refine ⟨fun hl => hl.resolve_right ?_, .inl⟩
    rintro ⟨ha, hl, -⟩
    exact hl (h (ha.resolve_left hp))

theorem exact_report_iff (hp : s.Past) (he : s.Exact) (hc : s.clock ≤ now) : (s.report r peer now).Exact ↔
      (Listed s.entries peer now → ∃ e ∈ s.entries, e.peer = peer ∧ e.since = now) ∧
        ∀ p ∈ r.avoid, p ≠ peer → Listed s.entries p now := by
  rw [exact_iff, ← listed_report_self_iff (r := r) hp hc]
  constructor
  case mp =>
    intro h
    refine ⟨fun now' hn => (h now' hn peer).trans recent_report_self, fun p ha hpeer => ?_⟩
    exact (listed_report_ne_iff he hc hpeer).mp (fun now' hn => (h now' hn p).trans (recent_report_ne hpeer)) ha
  case mpr =>
    intro ⟨hself, hother⟩ now' hn p
    by_cases hpeer : p = peer
    case pos =>
      subst hpeer
      exact (hself now' hn).trans recent_report_self.symm
    case neg =>
      have hr := (listed_report_ne_iff he hc hpeer).mpr (hother p · hpeer) now' hn
      exact hr.trans (recent_report_ne hpeer).symm

theorem exact_step_iff (hp : s.Past) (he : s.Exact) (hs : s.step l = some s') : s'.Exact ↔ s.Renewed l := by
  obtain ⟨now, event⟩ := l
  cases event
  case start forced =>
    simp only [step] at hs
    split at hs <;> cases hs
    case isTrue hc => exact iff_of_true (fun now' hn => he now' (hc.trans hn)) trivial
  case iranianEgress peer =>
    obtain ⟨r, hr, hs⟩ := Option.bind_eq_some_iff.mp hs
    split at hs <;> cases hs
    case isTrue hc =>
      rw [exact_report_iff hp he hc.1]
      simp [Renewed, hr]

-- The list is exact as long as no report leaves an old entry as it is and none puts another back.
theorem always_exact_iff (run : List (Nat × Event)) :
    Lts.Always step Exact {} run ↔ Lts.Admits step Renewed {} run := by
  apply Lts.always_iff_admits (I := Past)
  · exact fun _ _ _ hp _ hs _ => hp.step hs
  · exact fun _ _ _ hp he hs => exact_step_iff hp he hs
  · exact forall_mem_nil _
  · exact fun _ _ p => by simp [loadAvoided]

def gateway (host : UInt8) : SocketAddr :=
  ⟨.v4 (.new 162 159 198 host), 443⟩

-- A gateway is reported, and thirteen hours later another one in the same run.
theorem not_always_exact : ¬ Lts.Always step Exact {}
    [(0, .start none), (0, .iranianEgress (gateway 1)), (46800, .iranianEgress (gateway 2))] := by
  intro h
  have hx : (Lts.exec step {} [(0, .start none), (0, .iranianEgress (gateway 1)),
      (46800, .iranianEgress (gateway 2))]).any fun s =>
    s.clock = 46800 && s.lastReport (gateway 1) = some 0 && decide (gateway 1 ∈ loadAvoided s.entries 46800) := by
    decide +kernel
  obtain ⟨s, hs, hl⟩ := (Option.any_eq_true ..).mp hx
  simp only [Bool.and_eq_true, decide_eq_true_eq] at hl
  obtain ⟨⟨hc, ht⟩, hl⟩ := hl
  have he := (h.last hs 46800 hc.le (gateway 1)).mp hl
  simp [ht, AVOID_TTL_SECS] at he

end State

end Engine.LastConn
