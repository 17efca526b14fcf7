import SoildTunnel.App.Theorems.Supervisor

-- Whether the supervisor gets out of a tunnel that is dead while its engine lives.
namespace App.VpnService

open Option

-- The failed cycle asks for a migration, stops the engine, or finds a deadline after which it is stopped.
def WayOut (w : Watch) (failures : Nat) (p : Probe) : Prop :=
  (watchEngine w failures p).1.migrateStreak = w.migrateStreak + 1 ∨
  (watchEngine w failures p).2.2 = true ∨
  w.recovering = true ∧ ∀ q : Probe, q.healthy = false → q.overdue = true → (watchEngine w failures q).2.2 = true

def Watch.hasWay (w : Watch) : Bool :=
  w.socksOpened || w.recovering

def Pc.hasWay? : Pc → Option Bool
  | .supervise c w | .watching c w | .repoint c w | .reopen c w | .reverify c w =>
    if isTor c then none else some w.hasWay
  | _ => none

def Begins : Pc → Event → Bool
  | .won _, .go => true
  | _, _ => false

def answered (id : Nat) (s : State) (l : Label) (_ : State) (heard : Bool) : Bool :=
  match l with
  | .run i e => (s.pcOf i).elim heard fun pc =>
    if StartsEngine pc e || i = id && Begins pc e then false
    else heard || (i = id && Heals s pc e)
  | _ => heard

-- No other session starts an engine.
def State.Alone (s : State) (id : Nat) : Label → Prop
  | .run i e => i = id ∨ ∀ pc ∈ s.pcOf i, StartsEngine pc e = false
  | _ => True

section Watch

variable {w : Watch} {failures : Nat} {p : Probe}

theorem hasWay_watchEngine (h : (watchEngine w failures p).2.2 = false) :
    (watchEngine w failures p).1.hasWay = (p.healthy || w.hasWay) := by
  unfold watchEngine at h ⊢
  split
  case isTrue hh => simp [Watch.hasWay, hh]
  case isFalse hh =>
    rw [if_neg hh] at h
    split
    case isTrue hs => simp [hs] at h
    case isFalse hs =>
      rw [if_neg hs] at h
      split
      case isTrue ho =>
        rw [if_pos ho] at h
        split
        case isTrue hr => simp [hr] at h
        case isFalse => simp [hh]
      case isFalse ho =>
        rw [if_neg ho] at h
        split
        case isTrue hf => simp [hf] at h
        case isFalse =>
          have ho : w.socksOpened = true := by simpa using ho
          simp [Watch.hasWay, ho]

theorem stops_overdue (ho : w.socksOpened = false) (hr : w.recovering = true) (hh : p.healthy = false)
    (hd : p.overdue = true) : (watchEngine w failures p).2.2 = true := by
  unfold watchEngine
  cases hs : p.switched <;> simp [hh, hd, ho, hr]

theorem wayOut_iff (hh : p.healthy = false) (hs : p.switched = false) : WayOut w failures p ↔ w.hasWay := by
  unfold WayOut Watch.hasWay
  cases ho : w.socksOpened
  case false =>
    cases hr : w.recovering
    case false => simp [watchEngine, hh, hs, ho, hr]
    case true =>
      refine iff_of_true (.inr (.inr ⟨rfl, fun q hq hd => ?_⟩)) rfl
      exact stops_overdue ho hr hq hd
  case true =>
    by_cases hf : failures + 1 ≥ WATCHDOG_FAIL_CYCLES ∨ w.migrateStreak ≥ MAX_MIGRATES_PER_EPISODE
    case pos => simp [watchEngine, hh, hs, ho, hf]
    case neg => simp [watchEngine, hh, hs, ho, hf]

end Watch

section Engine

namespace State

variable {s : State} {id : Nat} {j : Job} {c : ConnectionProfile}

theorem engine_afterWatch {r : Watch × Nat × Bool} (he : (s.afterWatch id j c r).engine = some true) :
    isTor c ∨ r.2.2 = false := by
  unfold afterWatch stopProcess at he
  dsimp only at he
  split at he
  case isTrue =>
    split at he
    case isTrue ht => exact .inl ht
    case isFalse => simp [setPc] at he
  case isFalse hr => exact .inr (Bool.eq_false_iff.mpr hr)

end State

end Engine

section Ways

variable {s s' : State} {id i : Nat} {l : Label} {e : Event} {pc pc' : Pc} {heard b : Bool}

def State.hasWay? (s : State) (id : Nat) : Option Bool :=
  (s.pcOf id).bind Pc.hasWay?

theorem State.hasWay?_eq_some : s.hasWay? id = some b ↔ ∃ pc, s.pcOf id = some pc ∧ pc.hasWay? = some b :=
  bind_eq_some_iff

theorem Pc.hasWay?_of_isOther (h : pc.isOther) : pc.hasWay? = none := by
  cases pc <;> first | rfl | cases h

theorem hasWay_of_tor {c : ConnectionProfile} {w : Watch} (ht : isTor c) : ¬ (if isTor c then none else some w.hasWay) = some b := by
  rw [if_pos ht]
  exact nofun

theorem answered_of_starts (hpc : s.pcOf i = some pc) (h : StartsEngine pc e) :
    answered id s (.run i e) s' heard = false := by
  simp [answered, hpc, h]

theorem answered_of_ne (hi : i ≠ id) (hpc : s.pcOf i = some pc) (h : StartsEngine pc e = false) :
    answered id s (.run i e) s' heard = heard := by
  simp [answered, hpc, h, hi]

theorem answered_self (hpc : s.pcOf id = some pc) (h : StartsEngine pc e = false) (hb : Begins pc e = false) :
    answered id s (.run id e) s' heard = (heard || Heals s pc e) := by
  simp [answered, hpc, h, hb]

theorem hasWay?_probe {c : ConnectionProfile} {w : Watch} {p : Probe} (hpc : s.pcOf id = some (.watching c w))
    (h : s.step (.run id (.probe p)) = some s') (he : s'.engine = some true) (hw : s'.hasWay? id = some b) :
    b = (Heals s (.watching c w) (.probe p) || w.hasWay) ∧ isTor c = false := by
  obtain ⟨j, hj, h⟩ := bind_eq_some_iff.mp h
  have hjp : j.pc = .watching c w := by simpa [State.pcOf, hj] using hpc
  simp only [State.jobStep, hjp] at h
  cases h
  unfold State.watchStep at he hw
  split at he
  case isTrue ha =>
    rw [if_pos ha] at hw
    obtain ⟨pc, hp, hw⟩ := State.hasWay?_eq_some.mp hw
    cases State.pcOf_setPc_self.symm.trans hp
    obtain ⟨ht, hw⟩ := ite_none_left_eq_some.mp hw
    have ht : isTor c = false := Bool.eq_false_iff.mpr ht
    have hs := State.engine_afterWatch he
    simp only [ht, Bool.false_eq_true, if_false, false_or] at hs hw
    rw [hasWay_watchEngine hs, Option.some_inj] at hw
    exact ⟨by simp [Heals, ha, ← hw], ht⟩
  case isFalse ha =>
    rw [if_neg ha] at hw
    obtain ⟨pc, hp, hw⟩ := State.hasWay?_eq_some.mp hw
    cases State.pcOf_setPc_self.symm.trans hp
    obtain ⟨ht, hw⟩ := ite_none_left_eq_some.mp hw
    exact ⟨by simp [Heals, ha, ← some_inj.mp hw], Bool.eq_false_iff.mpr ht⟩

theorem startsEngine_cases (h : StartsEngine pc e) :
    ∃ c, isTor c = false ∧ e = .outcome true ∧ ((∃ rest, pc = .spawn c rest) ∨ ∃ w, pc = .respawn c w) := by
  unfold StartsEngine at h
  split at h
  case h_1 c rest => exact ⟨c, by simpa using h, rfl, .inl ⟨rest, rfl⟩⟩
  case h_2 c w => exact ⟨c, by simpa using h, rfl, .inr ⟨w, rfl⟩⟩
  case h_3 => cases h

theorem hasWay?_starts (hpc : s.pcOf id = some pc) (hs : StartsEngine pc e) (h : s.step (.run id e) = some s')
    (hw : s'.hasWay? id = some b) : b = false := by
  obtain ⟨j, hj, h⟩ := bind_eq_some_iff.mp h
  obtain rfl : j.pc = pc := by simpa [State.pcOf, hj] using hpc
  obtain ⟨c, hc, rfl, ⟨rest, hjp⟩ | ⟨w, hjp⟩⟩ := startsEngine_cases hs
  all_goals
    simp only [State.jobStep, State.outcomeStep, hjp, hc, if_true, Bool.not_false, Bool.and_true] at h
    split at h <;> cases h
    obtain ⟨pc, hp, hw⟩ := State.hasWay?_eq_some.mp hw
    cases State.pcOf_setPc_self.symm.trans hp
  case inl => cases hw
  case inr =>
    obtain ⟨-, hw⟩ := ite_none_left_eq_some.mp hw
    exact (some_inj.mp hw).symm

-- What there is after a step: as much as has been heard, or as before. Another session may also have started an
-- engine of which nothing has been heard.
inductive Follows (id : Nat) (t : State × Bool) (l : Label) (heard b : Bool) : Prop
  | heard (h : b = heard)
  | kept (he : t.1.engine = some true) (hw : t.1.hasWay? id = some b) (h : heard = t.2)
  | foreign (h : heard = false) (hl : ¬ t.1.Alone id l)

theorem not_isFirst_of_hasWay? (hb : pc.hasWay? = some b) : ¬ pc.isFirst := by
  intro hf
  rw [Pc.hasWay?_of_isOther (Pc.isOther_of_isFirst hf)] at hb
  cases hb

theorem follows_foreign (hi : i ≠ id) (h : s.step (.run i e) = some s') (he : s'.engine = some true)
    (hw : s'.hasWay? id = some b) : Follows id (s, heard) (.run i e) (answered id s (.run i e) s' heard) b := by
  obtain ⟨pc', hpc', hb⟩ := State.hasWay?_eq_some.mp hw
  obtain ⟨pc, hpc, hm⟩ := State.moved_step h
  have hs := (hm.others id (Ne.symm hi) pc' hpc').resolve_right (not_isFirst_of_hasWay? hb)
  cases hst : StartsEngine pc e
  case true =>
    refine .foreign (answered_of_starts hpc hst) fun ha => ?_
    cases (ha.resolve_left hi pc hpc).symm.trans hst
  case false =>
    exact .kept ((hm.engine he).resolve_right (by simp [hst])) (State.hasWay?_eq_some.mpr ⟨pc', hs, hb⟩)
      (answered_of_ne hi hpc hst)

theorem follows_own (h : s.step (.run id e) = some s') (he : s'.engine = some true) (hw : s'.hasWay? id = some b) :
    Follows id (s, heard) (.run id e) (answered id s (.run id e) s' heard) b := by
  obtain ⟨pc', hpc', hb⟩ := State.hasWay?_eq_some.mp hw
  obtain ⟨pc, hpc, hm⟩ := State.moved_step h
  obtain ⟨q, hq, hmoves⟩ := hm.moves
  cases hpc'.symm.trans hq
  cases hst : StartsEngine pc e
  case true =>
    refine .heard ?_
    rw [hasWay?_starts hpc hst h hw, answered_of_starts hpc hst]
  case false =>
    have kept (hbefore : pc.hasWay? = some b) (hbe : Begins pc e = false) (hhe : Heals s pc e = false) :
        Follows id (s, heard) (.run id e) (answered id s (.run id e) s' heard) b := by
      refine .kept ((hm.engine he).resolve_right (by simp [hst])) (State.hasWay?_eq_some.mpr ⟨pc, hpc, hbefore⟩) ?_
      rw [answered_self hpc hst hbe, hhe, Bool.or_false]
    cases hmoves
    case other ho =>
      rw [Pc.hasWay?_of_isOther ho] at hb
      cases hb
    case won | dead => cases hb
    case respawnedTor ht | respawnFailed ht => exact absurd hb (hasWay_of_tor ht)
    case respawned => exact absurd hb (hasWay_of_tor (by simpa [StartsEngine] using hst))
    case supervise c =>
      obtain ⟨-, hb⟩ := ite_none_left_eq_some.mp hb
      refine .heard ?_
      rw [← some_inj.mp hb]
      simp [answered, hpc, Begins, Watch.hasWay]
    case alive | repointed | reopened | timedOut | reverified | refuted => exact kept hb rfl rfl
    case watched c w w' p _ =>
      obtain ⟨hb', ht⟩ := hasWay?_probe hpc h he hw
      cases hhe : Heals s (.watching c w) (.probe p)
      case true =>
        refine .heard ?_
        rw [answered_self hpc hst rfl, hb', hhe, Bool.true_or, Bool.or_true]
      case false =>
        refine kept ?_ rfl hhe
        rw [Pc.hasWay?, ht, hb', hhe, Bool.false_or]
        rfl

theorem follows_step {t t' : State × Bool} (h : Lts.observed State.step (answered id) t l = some t')
    (he : t'.1.engine = some true) (hw : t'.1.hasWay? id = some b) : Follows id t l t'.2 b := by
  obtain ⟨hs, hh⟩ := Lts.observed_eq_some.mp h
  rw [hh]
  cases l
  case run i e =>
    by_cases hi : i = id
    case pos => subst hi; exact follows_own hs he hw
    case neg => exact follows_foreign hi hs he hw
  all_goals
    obtain ⟨pc', hpc', hb⟩ := State.hasWay?_eq_some.mp hw
    have hst := State.started_step rfl hs
    have hp := (hst.others id pc' hpc').resolve_right (not_isFirst_of_hasWay? hb)
    exact .kept (hst.engine he) (State.hasWay?_eq_some.mpr ⟨pc', hp, hb⟩) rfl

end Ways

variable {id : Nat}

-- While the engine lives, what has been heard of it shows in the supervisor's variables.
def HeardShows (id : Nat) (t : State × Bool) : Prop :=
  ∀ b ∈ t.1.hasWay? id, t.1.engine = some true → t.2 = true → b = true

def ShowsHeard (id : Nat) (t : State × Bool) : Prop :=
  ∀ b ∈ t.1.hasWay? id, t.1.engine = some true → b = true → t.2 = true

theorem heardShows_step {t t' : State × Bool} {l : Label} (hi : HeardShows id t)
    (h : Lts.observed State.step (answered id) t l = some t') : HeardShows id t' := by
  intro b hb he hh
  cases follows_step h he hb
  case heard hbh => exact hbh.trans hh
  case kept he hw hk => exact hi b hw he (hk.symm.trans hh)
  case foreign hf _ => cases hf.symm.trans hh

theorem showsHeard_step {t t' : State × Bool} {l : Label} (hi : ShowsHeard id t) (ha : t.1.Alone id l)
    (h : Lts.observed State.step (answered id) t l = some t') : ShowsHeard id t' := by
  intro b hb he hbt
  cases follows_step h he hb
  case heard hbh => exact hbh.symm.trans hbt
  case kept he hw hk => exact hk.trans (hi b hw he hbt)
  case foreign _ hf => exact absurd ha hf

theorem hasWay?_init : ({} : State).hasWay? id = none := rfl

-- In every run: once the engine that runs has answered, every failed cycle has a way out. And where no other session
-- starts an engine, no failed cycle before that has one.
theorem wayOut_of_answered (id : Nat) (run : List Label) (s : State) (heard : Bool)
    (hx : Lts.exec (Lts.observed State.step (answered id)) ({}, false) run = some (s, heard))
    (c : ConnectionProfile) (w : Watch) (hpc : s.pcOf id = some (.watching c w)) (ht : isTor c = false)
    (ha : s.isAlive c) (p : Probe) (hp : p.healthy = false) (hs : p.switched = false) :
    (heard = true → WayOut w s.probeFailures p) ∧
    (Lts.Admits (Lts.observed State.step (answered id)) (fun t l => t.1.Alone id l) ({}, false) run →
      WayOut w s.probeFailures p → heard = true) := by
  have hw : s.hasWay? id = some w.hasWay := by
    rw [State.hasWay?, hpc, bind_some, Pc.hasWay?, ht]
    rfl
  have he : s.engine = some true := by simpa [State.isAlive, ht] using ha
  rw [wayOut_iff hp hs]
  constructor
  case left =>
    have h₀ : HeardShows id ({}, false) := fun b hb => by simp [hasWay?_init] at hb
    have hi : HeardShows id (s, heard) := Lts.exec_invariant (fun _ _ _ => heardShows_step) h₀ hx
    exact hi w.hasWay hw he
  case right =>
    intro hrun
    have h₀ : ShowsHeard id ({}, false) := fun b hb => by simp [hasWay?_init] at hb
    have hi : ShowsHeard id (s, heard) :=
      (Lts.always_of_admits (fun _ _ _ => showsHeard_step) (fun _ h => h) h₀ hrun).last hx
    exact hi w.hasWay hw he

def healthyOnce : List Label :=
  Counted.slowPort.take 12 ++ [.run 0 .go, .run 0 (.probe ⟨true, false, false⟩), .run 0 .go]

-- The tunnel works for a round, and fails in the next one.
theorem wayOut_healthyOnce :
    ∃ s w, Lts.exec (Lts.observed State.step (answered 0)) ({}, false) healthyOnce = some (s, true) ∧
      s.pcOf 0 = some (.watching Counted.oneRetry w) ∧ isTor Counted.oneRetry = false ∧
      s.isAlive Counted.oneRetry = true ∧ WayOut w s.probeFailures ⟨false, false, false⟩ :=
  ⟨_, { socksOpened := true, healthyChecks := 1 }, rfl, rfl, rfl, rfl,
    (wayOut_of_answered 0 healthyOnce _ true rfl Counted.oneRetry _ rfl rfl rfl ⟨false, false, false⟩ rfl rfl).1 rfl⟩

-- The engine was started again and lives, and its port did not open in time. Every failed round leaves all as it is.
theorem not_wayOut_slowPort : ∃ s w, Lts.exec State.step {} (Counted.slowPort ++ [.run 0 .go]) = some s ∧
      s.pcOf 0 = some (.watching Counted.oneRetry w) ∧ isTor Counted.oneRetry = false ∧
      s.isAlive Counted.oneRetry = true ∧
      ∀ overdue, ¬ WayOut w s.probeFailures ⟨false, false, overdue⟩ ∧
        watchEngine w s.probeFailures ⟨false, false, overdue⟩ = (w, s.probeFailures, false) := by
  refine ⟨_, {}, rfl, rfl, rfl, rfl, fun overdue => ⟨?_, rfl⟩⟩
  rw [wayOut_iff rfl rfl]
  exact Bool.false_ne_true

end App.VpnService
