import SoildTunnel.Engine.Reconnect
import SoildTunnel.Lib.History
import SoildTunnel.Lib.Lts

-- Which endpoints the WireGuard loop leaves alone for a while.
namespace Engine.Reconnect.WireGuard

open Rust History List Option

namespace Entry

def Parks (q : SocketAddr) : Entry → Prop
  | parked p _ => p = q
  | ended .. => False

-- The end of a tunnel to another endpoint.
def Leaves (q : SocketAddr) : Entry → Prop
  | parked .. => False
  | ended p _ => p ≠ q

def Fails (q : SocketAddr) : Entry → Prop
  | parked .. => False
  | ended p result => p = q ∧ result ≠ .migrate

end Entry

-- A tunnel to the endpoint has failed; since then it was not parked, and there was no other tunnel.
def Failed (q : SocketAddr) : List Entry → Prop :=
  Since (fun e => ¬ e.Parks q ∧ ¬ e.Leaves q) fun e _ => e.Fails q

-- The endpoint has to be parked: it was left for another one, or it has failed again.
def Owed (q : SocketAddr) : List Entry → Prop :=
  Since (fun e => ¬ e.Parks q) fun e past => e = .ended q .migrate ∨ e.Fails q ∧ Failed q past

-- No tunnel is started to an endpoint that is parked, nor while one has to be parked.
def State.Sound (s : State) : Prop :=
  ∀ c, s.phase = .tunnel c →
    (∀ expiry, Entry.parked c.peer expiry ∈ s.log → expiry ≤ s.clock) ∧ ∀ q, ¬ Owed q s.log

section Log

variable {p q : SocketAddr} {expiry : Nat} {result : Ended} {log : List Entry}

@[simp]
theorem failed_nil : Failed q [] ↔ False := Iff.rfl

@[simp]
theorem failed_parked : Failed q (.parked p expiry :: log) ↔ p ≠ q ∧ Failed q log := by
  simp [Failed, Entry.Parks, Entry.Leaves, Entry.Fails]

@[simp]
theorem failed_ended : Failed q (.ended p result :: log) ↔ p = q ∧ (result ≠ .migrate ∨ Failed q log) := by
  simp only [Failed, since_cons, Entry.Parks, Entry.Leaves, Entry.Fails]
  tauto

@[simp]
theorem owed_nil : Owed q [] ↔ False := Iff.rfl

@[simp]
theorem owed_parked : Owed q (.parked p expiry :: log) ↔ p ≠ q ∧ Owed q log := by
  simp [Owed, Entry.Parks, Entry.Fails]

@[simp]
theorem owed_ended : Owed q (.ended p result :: log) ↔ (p = q ∧ (result = .migrate ∨ Failed q log)) ∨ Owed q log := by
  simp only [Owed, since_cons, Entry.Parks, Entry.Fails, Entry.ended.injEq]
  tauto

end Log

namespace State

variable {s s' : State} {e : Event} {c : Candidate}

def Good (s : State) (q : SocketAddr) : Prop :=
  s.lastGood.map (·.peer) = some q

-- What is parked and still has to wait is left out by scans, and it is not what is tried again.
structure Kept (s : State) : Prop where
  unforced : s.forced = none
  fresh : s.quick ≠ none → s.log = [] ∧ s.fails = 0
  parked : ∀ q expiry, .parked q expiry ∈ s.log → expiry ≤ s.clock ∨ (q, expiry) ∈ s.cooldowns ∧ ¬ s.Good q

-- Nothing has to be parked, and the failure of the last endpoint is counted.
structure Ready (s : State) : Prop extends Kept s where
  failed : ∀ q, Failed q s.log → s.Good q ∧ 1 ≤ s.fails
  owed : ∀ q, ¬ Owed q s.log

inductive Inv (s : State) : Prop
  | top (hp : s.phase = .top) (hk : s.Kept) (hf : ∀ q, Failed q s.log → s.Good q ∧ 1 ≤ s.fails)
      (ho : ∀ q, Owed q s.log → s.Good q ∧ 2 ≤ s.fails)
  | retrying (c : Candidate) (hp : s.phase = .retrying c) (hq : s.quick = none) (hg : s.lastGood = some c) (hr : s.Ready)
  | scanning (hp : s.phase = .scanning) (hq : s.quick = none) (hr : s.Ready)
  | tunnel (c : Candidate) (hp : s.phase = .tunnel c) (hq : s.quick = none) (hg : s.lastGood = some c) (hk : s.Kept)
      (hf : Failed c.peer s.log → 1 ≤ s.fails) (ho : ∀ q, ¬ Owed q s.log)

theorem Kept.expired (h : s.Kept) {q : SocketAddr} (hg : s.Good q) {expiry : Nat} (hm : .parked q expiry ∈ s.log) :
    expiry ≤ s.clock :=
  (h.parked q expiry hm).resolve_right fun hn => hn.2 hg

variable {now : Nat}

theorem Kept.tick (h : s.Kept) (hn : s.clock ≤ now) : Kept { s with clock := now } where
  unforced := h.unforced
  fresh := h.fresh
  parked q expiry hm := (h.parked q expiry hm).imp_left fun he => he.trans hn

-- The endpoint that is parked is the last one, so that it is not waiting from an earlier time.
theorem Kept.park (h : s.Kept) {q : SocketAddr} (hg : s.Good q) (hq : s.quick = none) :
    Kept { s.park q with lastGood := none, fails := 0 } where
  unforced := h.unforced
  fresh hn := absurd hq hn
  parked p expiry hm := by
    rcases mem_cons.mp hm with he | hm
    · cases he
      exact .inr ⟨mem_cons_self, nofun⟩
    · refine (h.parked p expiry hm).imp_right fun ⟨hc, hn⟩ => ⟨mem_cons_of_mem _ ?_, nofun⟩
      exact mem_filter.mpr ⟨hc, by simpa using fun he : p = q => hn (he ▸ hg)⟩

theorem Inv.sound (h : s.Inv) : s.Sound := by
  intro c hp
  rcases h with ⟨hp', _, _, _⟩ | ⟨c', hp', _, _, _⟩ | ⟨hp', _, _⟩ | ⟨c', hp', _, hg, hk, _, ho⟩
  · cases hp.symm.trans hp'
  · cases hp.symm.trans hp'
  · cases hp.symm.trans hp'
  · cases hp.symm.trans hp'
    exact ⟨fun expiry hm => hk.expired (by rw [Good, hg]; rfl) hm, ho⟩

theorem Ready.use (h : s.Ready) (hq : s.quick = none) (hc : ∀ expiry, .parked c.peer expiry ∈ s.log → expiry ≤ s.clock) :
    (s.use c).Inv := by
  refine .tunnel c rfl hq rfl ⟨h.unforced, fun hn => absurd hq hn, fun q expiry hm => ?_⟩ (fun hf => ?_) h.owed
  · by_cases he : c.peer = q
    case pos => exact .inl (hc expiry (he ▸ hm))
    case neg => exact (h.parked q expiry hm).imp_right fun hn => ⟨hn.1, fun hg => he (some_inj.mp hg)⟩
  · have ⟨hg, hle⟩ := h.failed _ hf
    have hu : (s.use c).fails = s.fails := if_pos hg
    rw [hu]
    exact hle

theorem Kept.tidy (hk : s.Kept) (hf : ∀ q, Failed q s.log → s.Good q ∧ 1 ≤ s.fails)
    (ho : ∀ q, Owed q s.log → s.Good q ∧ 2 ≤ s.fails) : s.tidy.Ready := by
  have hkept : Kept { s with cooldowns := s.cooldowns.filter (s.clock < ·.2) } := by
    refine ⟨hk.unforced, hk.fresh, fun q expiry hm => ?_⟩
    rcases hk.parked q expiry hm with he | ⟨hc, hg⟩
    · exact .inl he
    · by_cases he : expiry ≤ s.clock
      case pos => exact .inl he
      case neg => exact .inr ⟨mem_filter.mpr ⟨hc, by simpa using he⟩, hg⟩
  simp only [State.tidy]
  split
  case isFalse hlt => exact ⟨hkept, hf, fun q h => hlt (ho q h).2⟩
  case isTrue hle =>
    split
    case h_1 c hg =>
      have hgood : ∀ q, s.Good q → q = c.peer := fun q h => some_inj.mp (h.symm.trans (congrArg _ hg))
      have hq : s.quick = none := by
        by_contra hn
        have := (hk.fresh hn).2
        simp only [MAX_CONSECUTIVE_FAILS] at hle
        omega
      refine ⟨hkept.park (congrArg _ hg) hq, fun q h => ?_, fun q h => ?_⟩
      · have h := failed_parked.mp h
        exact absurd (hgood q (hf q h.2).1).symm h.1
      · have h := owed_parked.mp h
        exact absurd (hgood q (ho q h.2).1).symm h.1
    case h_2 hg =>
      have hgood : ∀ q, ¬ s.Good q := fun q h => by simp [Good, hg] at h
      refine ⟨⟨hkept.unforced, fun hn => ⟨(hkept.fresh hn).1, rfl⟩, hkept.parked⟩, fun q h => ?_, fun q h => ?_⟩
      · exact absurd (hf q h).1 (hgood q)
      · exact absurd (ho q h).1 (hgood q)

theorem Ready.search (h : s.Ready) (hq : s.quick = none) : s.search.Inv := by
  have hs : s.search = { s with phase := .scanning } := by simp [State.search, h.unforced]
  rw [hs]
  exact .scanning rfl hq ⟨⟨h.unforced, h.fresh, h.parked⟩, h.failed, h.owed⟩

theorem Ready.next (h : s.Ready) : s.next.Inv := by
  unfold State.next
  split
  case h_1 c hq =>
    have hl := (h.fresh (by simp [hq])).1
    have hr : Ready { s with quick := none } := ⟨⟨h.unforced, fun hn => absurd rfl hn, h.parked⟩, h.failed, h.owed⟩
    exact hr.use rfl fun expiry hm => by simp [hl] at hm
  case h_2 hq =>
    split
    case h_1 c hg => exact .retrying c rfl hq hg ⟨⟨h.unforced, h.fresh, h.parked⟩, h.failed, h.owed⟩
    case h_2 => exact h.search hq

theorem Kept.ended (hk : s.Kept) (hq : s.quick = none) (hg : s.lastGood = some c) (hf : Failed c.peer s.log → 1 ≤ s.fails)
    (ho : ∀ q, ¬ Owed q s.log) (result : Ended) : (s.ended c result).Inv := by
  have hgood : s.Good c.peer := congrArg _ hg
  have hkept : Kept { s with log := .ended c.peer result :: s.log, phase := .top } :=
    ⟨hk.unforced, fun hn => absurd hq hn, fun q expiry hm => hk.parked q expiry ((mem_cons.mp hm).resolve_left nofun)⟩
  simp only [State.ended]
  split
  case isTrue hm =>
    refine .top rfl (hkept.park hgood hq) (fun q h => ?_) (fun q h => ?_)
    · have h := failed_parked.mp h
      exact absurd (failed_ended.mp h.2).1 h.1
    · have h := owed_parked.mp h
      rcases owed_ended.mp h.2 with hn | hn
      · exact absurd hn.1 h.1
      · exact absurd hn (ho q)
  case isFalse hm =>
    refine .top rfl ⟨hkept.unforced, fun hn => absurd hq hn, hkept.parked⟩ (fun q h => ?_) (fun q h => ?_)
    · exact ⟨(failed_ended.mp h).1 ▸ hgood, Nat.le_add_left 1 _⟩
    · rcases owed_ended.mp h with ⟨rfl, hn⟩ | hn
      · exact ⟨hgood, Nat.succ_le_succ (hf (hn.resolve_left hm))⟩
      · exact absurd hn (ho q)

theorem Ready.tick (h : s.Ready) (hn : s.clock ≤ now) : Ready { s with clock := now } :=
  ⟨h.toKept.tick hn, h.failed, h.owed⟩

theorem Inv.tick (h : s.Inv) (hn : s.clock ≤ now) : Inv { s with clock := now } := by
  rcases h with ⟨hp, hk, hf, ho⟩ | ⟨c, hp, hq, hg, hr⟩ | ⟨hp, hq, hr⟩ | ⟨c, hp, hq, hg, hk, hf, ho⟩
  · exact .top hp (hk.tick hn) hf ho
  · exact .retrying c hp hq hg (hr.tick hn)
  · exact .scanning hp hq (hr.tick hn)
  · exact .tunnel c hp hq hg (hk.tick hn) hf ho

theorem Inv.act (h : s.Inv) (hs : s.act e = some s') : s'.Inv := by
  rcases h with ⟨hp, hk, hf, ho⟩ | ⟨c, hp, hq, hg, hr⟩ | ⟨hp, hq, hr⟩ | ⟨c, hp, hq, hg, hk, hf, ho⟩
  all_goals
    unfold State.act at hs
    rw [hp] at hs
  · cases e <;> cases hs
    exact (hk.tidy hf ho).next
  · cases e <;> cases hs
    split
    case isTrue => exact hr.use hq fun expiry hm => hr.expired (congrArg _ hg) hm
    case isFalse => exact hr.search hq
  · rcases e with _ | _ | _ | (_ | c) | _ <;> try cases hs
    · exact .top rfl ⟨hr.unforced, hr.fresh, hr.parked⟩ hr.failed fun q h => absurd h (hr.owed q)
    · obtain ⟨hc, hs⟩ := ite_none_left_eq_some.mp hs
      cases hs
      refine hr.use hq fun expiry hm => (hr.parked c.peer expiry hm).resolve_right fun hn => ?_
      exact hc (mem_map_of_mem hn.1)
  · cases e <;> cases hs
    exact hk.ended hq hg hf ho _

theorem Inv.step (h : s.Inv) {l : Nat × Event} (hs : s.step l = some s') : s'.Inv := by
  obtain ⟨hn, hs⟩ := ite_none_right_eq_some.mp hs
  exact (h.tick hn).act hs

end State

theorem always_sound (cm : CaseMap) (su : Setup) (verifies : SocketAddr → Text → Bool) (cooldown : Nat)
    (events : List (Nat × Event)) : Lts.Always State.step State.Sound (.start cm su none verifies cooldown) events := by
  have hi : (State.start cm su none verifies cooldown).Inv :=
    .top rfl ⟨rfl, fun _ => ⟨rfl, rfl⟩, nofun⟩ nofun nofun
  exact Lts.always_iff.mpr fun _ _ _ _ hx => (Lts.exec_invariant (fun _ _ _ h hs => h.step hs) hi hx).sound

end Engine.Reconnect.WireGuard
