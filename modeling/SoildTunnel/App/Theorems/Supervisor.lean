import SoildTunnel.App.Theorems.Coroutine

-- How often the supervisor starts the engine again before something works.
namespace App.VpnService

def Pc.supervised? : Pc → Option ConnectionProfile
  | .supervise c _ | .watching c _ | .respawn c _ | .repoint c _ | .reopen c _ | .reverify c _ => some c
  | _ => none

def Restarts : Pc → Event → Bool
  | .respawn .., .outcome true => true
  | _, _ => false

def Heals (s : State) : Pc → Event → Bool
  | .watching c _, .probe p => p.healthy && s.isAlive c
  | _, _ => false

-- The service, and for each coroutine the processes it has started again since Connected was last
-- reported and since a probe of its own last succeeded.
structure Counted where
  service : State := {}
  restarts : Nat → Nat := fun _ => 0

namespace Counted

def count (t : Counted) (id : Nat) (pc : Pc) (e : Event) : Nat → Nat :=
  if Reports pc e then fun _ => 0
  else if Restarts pc e then Function.update t.restarts id (t.restarts id + 1)
  else if Heals t.service pc e then Function.update t.restarts id 0
  else t.restarts

def recount (t : Counted) : Label → Nat → Nat
  | .run id e => (t.service.pcOf id).elim t.restarts (t.count id · e)
  | _ => t.restarts

def step (t : Counted) (l : Label) : Option Counted :=
  (t.service.step l).map ({ service := ·, restarts := t.recount l })

def limit (p : ConnectionProfile) : Nat :=
  (max 1 (min 50 p.reconnectRetryLimit.toInt)).toNat

def BoundedAt (t : Counted) (id : Nat) : Prop :=
  ∀ c ∈ (t.service.pcOf id).bind Pc.supervised?, ¬ isTor c → c.smartReconnect → t.restarts id ≤ limit c

instance BoundedAt.decidable (t : Counted) (id : Nat) : Decidable (t.BoundedAt id) :=
  inferInstanceAs (Decidable (∀ c ∈ (t.service.pcOf id).bind Pc.supervised?, _))

def Bounded (t : Counted) : Prop :=
  ∀ id, t.BoundedAt id

-- A supervisor that finds the engine alive has not started it again since something worked. Only
-- then nothing is lost when it sets `attempt` to zero.
def Verified (t : Counted) : Label → Bool
  | .run id .go =>
    match t.service.pcOf id with
    | some (.supervise c _) => isTor c || !t.service.isAlive c || t.restarts id = 0
    | _ => true
  | _ => true

-- What `attempt` says about the restarts, at each point of the supervisor.
def Counts (n : Nat) : Pc → Prop
  | .respawn c w => isTor c ∨ n < w.attempt ∧ w.attempt ≤ maxRetries c
  | .repoint c _ => isTor c
  | .supervise c w | .watching c w | .reopen c w | .reverify c w =>
    isTor c ∨ n ≤ w.attempt ∧ w.attempt ≤ maxRetries c
  | _ => True

variable {t t' : Counted} {id n m : Nat} {l : Label} {e : Event} {pc pc' : Pc}

theorem Counts.mono (h : Counts n pc) (hm : m ≤ n) : Counts m pc := by
  cases pc
  case respawn => exact h.imp_right (And.imp_left hm.trans_lt)
  case supervise | watching | reopen | reverify => exact h.imp_right (And.imp_left hm.trans)
  case repoint => exact h
  all_goals trivial

theorem Counts.of_isOther (h : pc.isOther) : Counts n pc := by
  cases pc <;> trivial

theorem Counts.le (h : Counts n pc) {c : ConnectionProfile} (hc : pc.supervised? = some c) (ht : ¬ isTor c) :
    n ≤ maxRetries c := by
  cases pc <;> cases hc
  case respawn => exact ((h.resolve_left ht).left.trans_le (h.resolve_left ht).right).le
  case repoint => exact absurd h ht
  all_goals exact (h.resolve_left ht).left.trans (h.resolve_left ht).right

theorem count_ne_le {i : Nat} (hi : i ≠ id) : t.count id pc e i ≤ t.restarts i := by
  unfold count
  split
  case isTrue => exact Nat.zero_le _
  case isFalse => split_ifs <;> simp [Function.update_of_ne hi]

theorem count_self_le (h : Restarts pc e = false) : t.count id pc e id ≤ t.restarts id := by
  unfold count
  simp only [h, Bool.false_eq_true, if_false]
  split_ifs <;> simp

theorem count_of_restarts (h : Restarts pc e) (hr : Reports pc e = false) :
    t.count id pc e id = t.restarts id + 1 := by
  simp [count, h, hr]

theorem count_of_reports (h : Reports pc e) : t.count id pc e id = 0 := by
  simp [count, h]

theorem Counts.moves (h : Counts (t.restarts id) pc) (hm : Moves t.service pc e pc')
    (hpc : t.service.pcOf id = some pc) (hv : t.Verified (.run id e)) : Counts (t.count id pc e id) pc' := by
  cases hm
  case other ho => exact of_isOther ho
  case won => trivial
  case supervise c => exact .inr ⟨(count_of_reports rfl).le, Nat.zero_le _⟩
  case alive c w ha =>
    have hn : isTor c ∨ t.restarts id = 0 := by simpa [Verified, hpc, ha] using hv
    have hl : t.count id (.supervise c w) .go id ≤ t.restarts id := count_self_le rfl
    exact hn.imp_right fun hn => ⟨hl.trans hn.le, Nat.zero_le _⟩
  case dead c w hw =>
    have hl : t.count id (.supervise c w) .go id ≤ t.restarts id := count_self_le rfl
    exact h.imp_right fun ⟨hn, _⟩ => ⟨by simp; omega, hw⟩
  case watched c w w' p hw =>
    have h : Counts (t.count id (.watching c w) (.probe p) id) (.watching c w) := h.mono (count_self_le rfl)
    exact h.imp_right fun h => hw ▸ h
  case respawned c w w' hw =>
    rw [count_of_restarts rfl rfl]
    exact h.imp_right fun ⟨hn, hl⟩ => hw ▸ ⟨hn, hl⟩
  case respawnedTor ht => exact ht
  case respawnFailed ht => exact .inl ht
  case repointed => exact .inl h
  case reopened | timedOut | refuted => exact h.mono (count_self_le rfl)
  case reverified => exact .inr ⟨(count_of_reports rfl).le, Nat.zero_le _⟩

def Inv (t : Counted) : Prop :=
  ∀ id pc, t.service.pcOf id = some pc → Counts (t.restarts id) pc

theorem recount_of_not_isRun (h : l.isRun = false) : t.recount l = t.restarts := by
  cases l
  case run => cases h
  all_goals rfl

theorem Inv.run (h : t.Inv) (hv : t.Verified (.run id e)) (hs : t.step (.run id e) = some t') : t'.Inv := by
  obtain ⟨s, ht, rfl⟩ := Option.map_eq_some_iff.mp hs
  obtain ⟨pc, hpc, hs⟩ := State.moved_step ht
  have hr : t.recount (.run id e) = t.count id pc e := by simp [recount, hpc]
  intro i pc' hpc'
  simp only [hr]
  by_cases hi : i = id
  case pos =>
    subst hi
    obtain ⟨q, hq, hm⟩ := hs.moves
    cases hq.symm.trans hpc'
    exact (h i pc hpc).moves hm hpc hv
  case neg =>
    rcases hs.others i hi pc' hpc' with hpc' | hf
    case inl => exact (h i pc' hpc').mono (count_ne_le hi)
    case inr => exact .of_isOther (Pc.isOther_of_isFirst hf)

theorem Inv.step (h : t.Inv) (hv : t.Verified l) (hs : t.step l = some t') : t'.Inv := by
  cases hl : l.isRun
  case true =>
    obtain ⟨id, e, rfl⟩ : ∃ id e, l = .run id e := by
      cases l
      case run id e => exact ⟨id, e, rfl⟩
      all_goals cases hl
    exact h.run hv hs
  case false =>
    obtain ⟨s, ht, rfl⟩ := Option.map_eq_some_iff.mp hs
    intro i pc' hpc'
    simp only [recount_of_not_isRun hl]
    rcases (State.started_step hl ht).others i pc' hpc' with hpc | hf
    case inl => exact h i pc' hpc
    case inr => exact .of_isOther (Pc.isOther_of_isFirst hf)

theorem inv_init : Inv {} := by
  intro id pc h
  cases h

theorem Inv.bounded (h : t.Inv) : t.Bounded := by
  intro id c hc ht hs
  obtain ⟨pc, hpc, hc⟩ := Option.bind_eq_some_iff.mp hc
  have hl := (h id pc hpc).le hc ht
  simpa [maxRetries, hs, limit] using hl

-- As long as no restart is forgotten, there are at most as many in a row as the user allows.
theorem always_bounded_of_verified {run : List Label}
    (h : Lts.Admits step (fun t l => t.Verified l) {} run) : Lts.Always step Bounded {} run :=
  Lts.always_of_admits (fun _ _ _ hi hv hs => hi.step hv hs) (fun _ => Inv.bounded) inv_init h

def oneRetry : ConnectionProfile :=
  { protocol := .masque, smartReconnect := true, reconnectRetryLimit := 1 }

def slowPort : List Label :=
  [.connect oneRetry, .run 0 .go, .run 0 .go, .run 0 (.plan [oneRetry]), .run 0 .go, .run 0 .go,
    .run 0 (.outcome true), .run 0 (.outcome true), .run 0 (.outcome true), .run 0 (.outcome true),
    .run 0 (.outcome true), .run 0 .go, .engineDies, .run 0 .go, .run 0 (.outcome true), .run 0 (.outcome false)]

theorem always_bounded_restarted : Lts.Always step Bounded {} slowPort :=
  always_bounded_of_verified (by decide +kernel)

-- The engine is alive when the supervisor looks. It dies again, and is started a second time.
theorem not_always_bounded : ¬ Lts.Always step Bounded {} (slowPort ++
    [.run 0 .go, .engineDies, .run 0 (.probe ⟨false, false, false⟩), .run 0 .go, .run 0 (.outcome true)]) := by
  intro h
  have h : Lts.Always step (·.BoundedAt 0) {} _ := h.mono fun _ hb => hb 0
  exact Lts.not_always (by decide +kernel) h

end Counted

end App.VpnService
