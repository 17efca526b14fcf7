import SoildTunnel.App.VpnService

-- How the coroutines of the service move from one suspension point to the next, and what else a move changes.
namespace App.VpnService

open Option

-- Where a coroutine starts, where it is neither about to report Connected nor supervises, and the supervisor with
-- what comes after it.
def Pc.isFirst : Pc → Bool
  | .begin .. | .teardown _ | .lockdown .. => true
  | _ => false

def Pc.isOther : Pc → Bool
  | .won _ | .supervise .. | .watching .. | .respawn .. | .repoint .. | .reopen .. | .reverify .. => false
  | _ => true

def Pc.isLate : Pc → Bool
  | .supervise .. | .watching .. | .respawn .. | .repoint .. | .reopen .. | .reverify .. | .threw
  | .done => true
  | _ => false

theorem Pc.isOther_of_isFirst {pc : Pc} (h : pc.isFirst) : pc.isOther := by
  cases pc <;> first | rfl | cases h

-- The moves of the supervisors, and those into them. Where a coroutine goes otherwise is left open.
inductive Moves (s : State) : Pc → Event → Pc → Prop
  | other {pc e pc'} (h : pc'.isOther) : Moves s pc e pc'
  | won {c rest} : Moves s (.verify c rest) (.outcome true) (.won c)
  | supervise {c} : Moves s (.won c) .go (.supervise c {})
  | alive {c w} (h : s.isAlive c) : Moves s (.supervise c w) .go (.watching c { w with attempt := 0 })
  | dead {c w} (h : w.attempt < maxRetries c) :
    Moves s (.supervise c w) .go (.respawn c { w with attempt := w.attempt + 1 })
  | watched {c w w' p} (h : w'.attempt = w.attempt) : Moves s (.watching c w) (.probe p) (.supervise c w')
  | respawned {c w w'} (h : w'.attempt = w.attempt) : Moves s (.respawn c w) (.outcome true) (.reopen c w')
  | respawnedTor {c w} (h : isTor c) : Moves s (.respawn c w) (.outcome true) (.repoint c w)
  | respawnFailed {c w} (h : isTor c) : Moves s (.respawn c w) (.outcome false) (.supervise c w)
  | repointed {c w ok} : Moves s (.repoint c w) (.outcome ok) (.reopen c w)
  | reopened {c w} : Moves s (.reopen c w) (.outcome true) (.reverify c w)
  | timedOut {c w} : Moves s (.reopen c w) (.outcome false) (.supervise c w)
  | reverified {c w} : Moves s (.reverify c w) (.outcome true) (.supervise c { w with attempt := 0 })
  | refuted {c w} : Moves s (.reverify c w) (.outcome false) (.supervise c w)

def Reports : Pc → Event → Bool
  | .won _, .go | .reverify .., .outcome true => true
  | _, _ => false

def StartsEngine : Pc → Event → Bool
  | .spawn c _, .outcome true | .respawn c _, .outcome true => !isTor c
  | _, _ => false

def TouchesTun : Pc → Event → Bool
  | .begin (some _) _, .go | .threw, .go | .attempt .., .go | .rungFailed _, .go | .teardown _, .go
  | .establish .., .outcome true | .lockdownClose .., .go | .lockdownBuild .., .outcome _ | .lockdownUp _, .go => true
  | _, _ => false

def Label.isRun : Label → Bool
  | .run .. => true
  | _ => false

namespace State

variable {s s' t : State} {id : Nat} {j : Job} {l : Label} {pc pc' : Pc} {e : Event} {starts : Bool}

def pcOf (s : State) (id : Nat) : Option Pc :=
  (s.jobs id).map (·.pc)

structure Same (s s' : State) : Prop where
  tun : s'.tun = s.tun
  lockdown : s'.lockdownTunActive = s.lockdownTunActive
  armed : s'.armed → s.armed

structure Moved (s : State) (id : Nat) (pc : Pc) (e : Event) (s' : State) : Prop where
  others : ∀ i ≠ id, ∀ pc', s'.pcOf i = some pc' → s.pcOf i = some pc' ∨ pc'.isFirst
  moves : ∃ pc', s'.pcOf id = some pc' ∧ Moves s pc e pc'
  late : ∀ pc', s'.pcOf id = some pc' → pc.isLate || Reports pc e → pc'.isLate
  -- The session stays in charge, or a lockdown begins.
  runJob : s'.runJob = none ∨ s'.runJob = s.runJob ∧ ∀ i ≠ id, s'.pcOf i = s.pcOf i
  reports : s'.connection = .connected → s.connection = .connected ∨ Reports pc e
  armed : s'.armed → s.armed ∨ s.runJob = some id ∧ Reports pc e
  same : (TouchesTun pc e || Reports pc e) ∨ s.Same s'
  engine : s'.engine = some true → s.engine = some true ∨ StartsEngine pc e
  lastProfile : s'.lastProfile = s.lastProfile

-- What is done besides leaves the coroutines where they are and does not report Connected.
structure Keeps (s t : State) (starts : Bool) : Prop where
  pcOf : ∀ i, t.pcOf i = s.pcOf i
  reports : t.connection = .connected → s.connection = .connected
  engine : t.engine = some true → s.engine = some true ∨ starts
  runJob : t.runJob = s.runJob
  armed : t.armed = s.armed
  lastProfile : t.lastProfile = s.lastProfile

theorem Keeps.refl (s : State) : s.Keeps s starts :=
  ⟨fun _ => rfl, id, .inl, rfl, rfl, rfl⟩

theorem Keeps.report {connection : ConnectionState} (h : s.Keeps t starts) (hc : connection ≠ .connected) :
    s.Keeps { t with connection } starts :=
  ⟨h.pcOf, fun h => absurd h hc, h.engine, h.runJob, h.armed, h.lastProfile⟩

theorem pcOf_cancel (s : State) (job : Option Nat) (i : Nat) : (s.cancel job).pcOf i = s.pcOf i := by
  simp only [State.pcOf, cancel, map_map]
  congr 1
  funext j
  simp only [Function.comp]
  split <;> rfl

theorem pcOf_setPc_ne {i : Nat} (h : i ≠ id) : (t.setPc id j pc').pcOf i = t.pcOf i := by
  simp [State.pcOf, setPc, Function.update_of_ne h]

theorem pcOf_setPc_self : (t.setPc id j pc').pcOf id = some pc' := by
  simp [State.pcOf, setPc]

theorem Keeps.moved (h : s.Keeps t (StartsEngine pc e)) (hm : Moves s pc e pc')
    (hl : !(pc.isLate || Reports pc e) || pc'.isLate := by rfl)
    (ht : TouchesTun pc e ∨ t.tun = s.tun ∧ t.lockdownTunActive = s.lockdownTunActive := by
      first | exact .inr ⟨rfl, rfl⟩ | exact .inl rfl) : s.Moved id pc e (t.setPc id j pc') where
  others i hi _ hq := .inl ((h.pcOf i).symm.trans ((pcOf_setPc_ne hi).symm.trans hq))
  moves := ⟨pc', pcOf_setPc_self, hm⟩
  late q hq hp := by
    cases pcOf_setPc_self.symm.trans hq
    simpa [hp] using hl
  runJob := .inr ⟨h.runJob, fun i hi => (pcOf_setPc_ne hi).trans (h.pcOf i)⟩
  reports hc := .inl (h.reports hc)
  armed ha := .inl (h.armed ▸ ha)
  same := ht.imp (by simp +contextual) fun hs => ⟨hs.1, hs.2, fun ha => h.armed ▸ ha⟩
  engine := h.engine
  lastProfile := h.lastProfile

variable {c : ConnectionProfile}

theorem moved_reportConnected (hr : Reports pc e) (hm : Moves s pc e pc')
    (hl : pc'.isLate := by rfl) : s.Moved id pc e ((s.reportConnected id c).setPc id j pc') where
  others _ hi _ hq := .inl ((pcOf_setPc_ne hi).symm.trans hq)
  moves := ⟨pc', pcOf_setPc_self, hm⟩
  late q hq _ := by
    cases pcOf_setPc_self.symm.trans hq
    exact hl
  runJob := .inr ⟨rfl, fun i hi => pcOf_setPc_ne hi⟩
  reports _ := .inr hr
  armed ha := by
    have ha : s.armed = true ∨ (s.runJob = some id ∧ c.killSwitched = true) ∧ c.proxyMode = false := by
      simpa [reportConnected, setPc] using ha
    exact ha.imp_right fun h => ⟨h.1.1, hr⟩
  same := .inl (by simp [hr])
  engine := .inl
  lastProfile := rfl

theorem keeps_stopProcess (s : State) (c : ConnectionProfile) :
    s.Keeps (s.stopProcess c) false ∧ (s.stopProcess c).tun = s.tun ∧
      (s.stopProcess c).lockdownTunActive = s.lockdownTunActive := by
  unfold stopProcess
  split
  case isTrue => exact ⟨⟨fun _ => rfl, id, .inl, rfl, rfl, rfl⟩, rfl, rfl⟩
  case isFalse => exact ⟨⟨fun _ => rfl, id, by simp, rfl, rfl, rfl⟩, rfl, rfl⟩

theorem keeps_startProcess (s : State) (c : ConnectionProfile) :
    s.Keeps (s.startProcess c) (!isTor c) ∧ (s.startProcess c).tun = s.tun ∧
      (s.startProcess c).lockdownTunActive = s.lockdownTunActive := by
  unfold startProcess
  split
  case isTrue => exact ⟨⟨fun _ => rfl, id, .inl, rfl, rfl, rfl⟩, rfl, rfl⟩
  case isFalse ht => exact ⟨⟨fun _ => rfl, id, fun _ => .inr (by simpa using ht), rfl, rfl, rfl⟩, rfl, rfl⟩

theorem keeps_startTun2Socks (h : s.startTun2Socks c = some t) :
    s.Keeps t false ∧ t.tun = s.tun ∧ t.lockdownTunActive = s.lockdownTunActive := by
  unfold startTun2Socks at h
  split at h
  case isTrue => split at h <;> cases h <;> exact ⟨⟨fun _ => rfl, id, .inl, rfl, rfl, rfl⟩, rfl, rfl⟩
  case isFalse => cases h

theorem pcOf_launch {pc : Pc} {p : ConnectionProfile} {i : Nat} (h : (s.launch pc p).pcOf i = some pc') :
    s.pcOf i = some pc' ∨ pc' = pc := by
  by_cases hi : i = s.nextJob
  case pos => right; simpa [State.pcOf, launch, hi, eq_comm] using h
  case neg => left; simpa [State.pcOf, launch, Function.update_of_ne hi] using h

theorem pcOf_enterLockdown {p : ConnectionProfile} {i : Nat} (h : (s.enterLockdown p).pcOf i = some pc') :
    s.pcOf i = some pc' ∨ pc'.isFirst := by
  have h : (({ s with runJob := none }.cancel s.runJob).launch (.lockdown p s.runJob) p).pcOf i = some pc' := h
  rcases pcOf_launch h with h | rfl
  case inl => exact .inl ((pcOf_cancel ..).symm.trans h)
  case inr => exact .inr rfl

theorem moved_processDead {w : Watch} : s.Moved id (.supervise c w) .go (s.processDead id j c w) := by
  unfold processDead
  split
  case isTrue =>
    split
    case isTrue =>
      exact {
        others := fun i hi q hq => pcOf_enterLockdown ((pcOf_setPc_ne hi).symm.trans hq)
        moves := ⟨.done, pcOf_setPc_self, .other rfl⟩
        late := fun q hq _ => by cases pcOf_setPc_self.symm.trans hq; rfl
        -- The lockdown takes the session out of charge.
        runJob := .inl rfl
        reports := .inl
        armed := .inl
        same := .inr ⟨rfl, rfl, fun ha => ha⟩
        engine := .inl
        lastProfile := rfl }
    case isFalse => exact (Keeps.refl s).moved (.other rfl)
  case isFalse ha => exact Keeps.moved ⟨fun _ => rfl, by rintro ⟨⟩, .inl, rfl, rfl, rfl⟩ (.dead (not_le.mp ha))

theorem moved_goStep (h : s.goStep id j = some s') : s.Moved id j.pc .go s' := by
  have hs {b : Bool} : s.Keeps s b := .refl s
  cases hpc : j.pc <;> simp only [goStep, hpc] at h
  case begin r stop =>
    cases r <;> cases h
    case none => exact hs.moved (.other rfl)
    case some r => exact Keeps.moved ⟨pcOf_cancel s (some r), fun h => h, by rintro ⟨⟩, rfl, rfl, rfl⟩ (.other rfl)
  case ladder rungs => cases rungs <;> cases h <;> exact hs.moved (.other rfl)
  case joinRun | joinStop | flow | join =>
    split at h <;> cases h
    exact hs.moved (.other rfl)
  -- What tears the native side down leaves no engine.
  case threw | attempt =>
    cases h
    exact Keeps.moved ⟨fun _ => rfl, by rintro ⟨⟩, by rintro ⟨⟩, rfl, rfl, rfl⟩ (.other rfl)
  case idle | lockdownUp =>
    cases h
    exact Keeps.moved ⟨fun _ => rfl, by rintro ⟨⟩, .inl, rfl, rfl, rfl⟩ (.other rfl)
  case rungFailed | teardown | lockdown =>
    cases h
    exact Keeps.moved ⟨fun _ => rfl, fun h => h, by rintro ⟨⟩, rfl, rfl, rfl⟩ (.other rfl)
  case lockdownClose => cases h; exact Keeps.moved ⟨fun _ => rfl, fun h => h, .inl, rfl, rfl, rfl⟩ (.other rfl)
  case won c => cases h; exact moved_reportConnected rfl .supervise
  case supervise c w =>
    split at h
    case isTrue => cases h; exact hs.moved (.other rfl)
    case isFalse =>
      split at h <;> cases h
      case isTrue ha => exact hs.moved (.alive ha)
      case isFalse => exact moved_processDead
  all_goals cases h

theorem isOther_afterFailure (rest : Option (List ConnectionProfile)) : (afterFailure rest).isOther := by
  cases rest <;> rfl

theorem moved_outcomeStep {ok : Bool} (h : s.outcomeStep id j ok = some s') : s.Moved id j.pc (.outcome ok) s' := by
  have hs {b : Bool} : s.Keeps s b := .refl s
  cases hpc : j.pc <;> simp only [outcomeStep, hpc] at h
  case flow => split at h <;> cases h; exact hs.moved (.other rfl)
  case spawn c rest =>
    cases ok
    case true =>
      simp only [if_true] at h
      split at h <;> cases h
      have ⟨hk, ht⟩ := keeps_startProcess s c
      exact Keeps.moved (hk.report (by rintro ⟨⟩)) (.other (by split <;> rfl)) rfl (.inr ht)
    case false => cases h; exact hs.moved (.other (isOther_afterFailure rest))
  case awaitOpen c rest =>
    cases h
    refine hs.moved (.other ?_)
    split
    case isTrue => split <;> rfl
    case isFalse => exact isOther_afterFailure rest
  case proxy c rest =>
    split at h <;> cases h
    case isTrue => exact Keeps.moved (hs.report (by rintro ⟨⟩)) (.other rfl)
    case isFalse => exact hs.moved (.other (isOther_afterFailure rest))
  case establish c rest =>
    cases ok <;> cases h
    case true => exact Keeps.moved ⟨fun _ => rfl, fun h => h, .inl, rfl, rfl, rfl⟩ (.other rfl)
    case false => exact hs.moved (.other (isOther_afterFailure rest))
  case forward c rest =>
    split at h <;> cases h
    case h_1 s₁ hs =>
      have ⟨hk, ht⟩ := keeps_startTun2Socks (ite_none_right_eq_some.mp hs).right
      exact Keeps.moved (hk.report (by rintro ⟨⟩)) (.other rfl) rfl (.inr ht)
    case h_2 => exact hs.moved (.other (isOther_afterFailure rest))
  case verify c rest =>
    cases h
    cases ok
    case true => exact hs.moved .won
    case false => exact hs.moved (.other (isOther_afterFailure rest))
  case respawn c w =>
    cases ok
    case true =>
      simp only [if_true] at h
      split at h <;> cases h
      have ⟨hk, ht⟩ := keeps_startProcess s c
      split
      case isTrue hc => exact hk.moved (.respawnedTor hc) rfl (.inr ht)
      case isFalse => exact hk.moved (.respawned rfl) rfl (.inr ht)
    case false =>
      cases h
      split
      case isTrue ht => exact hs.moved (.respawnFailed ht)
      case isFalse => exact hs.moved (.other rfl)
  case repoint c w =>
    split at h
    case isTrue =>
      split at h <;> cases h
      case h_1 s₁ hs =>
        have ⟨hk, ht⟩ := keeps_startTun2Socks hs
        exact Keeps.moved ⟨hk.pcOf, hk.reports, hk.engine, hk.runJob, hk.armed, hk.lastProfile⟩ .repointed rfl (.inr ht)
      case h_2 => exact Keeps.moved ⟨fun _ => rfl, fun h => h, .inl, rfl, rfl, rfl⟩ (.other rfl)
    case isFalse => cases h; exact hs.moved .repointed
  case reopen c w =>
    cases ok <;> cases h
    case true => exact Keeps.moved (hs.report (by rintro ⟨⟩)) .reopened
    case false => exact hs.moved .timedOut
  case reverify c w =>
    cases ok <;> cases h
    case true => exact moved_reportConnected rfl .reverified
    case false =>
      have ⟨hk, ht⟩ := keeps_stopProcess s c
      exact hk.moved .refuted rfl (.inr ht)
  case lockdownBuild => cases h; exact Keeps.moved ⟨fun _ => rfl, fun h => h, .inl, rfl, rfl, rfl⟩ (.other rfl)
  all_goals cases h

theorem attempt_watch (w : Watch) (failures : Nat) (p : Probe) :
    (watchEngine w failures p).1.attempt = w.attempt ∧ (watchTor w failures p).1.attempt = w.attempt := by
  unfold watchEngine watchTor
  constructor
  case left => repeat' split
               all_goals rfl
  case right => repeat' split
                all_goals rfl

theorem moved_watchStep {w : Watch} {p : Probe} : s.Moved id (.watching c w) (.probe p) (s.watchStep id j c w p) := by
  unfold watchStep
  split
  case isFalse => exact (Keeps.refl s).moved (.watched rfl)
  case isTrue =>
    have hw : ∀ r : Watch × Nat × Bool, r.1.attempt = w.attempt →
        s.Moved id (.watching c w) (.probe p) (s.afterWatch id j c r) := by
      intro r hr
      unfold afterWatch
      dsimp only
      split
      case isTrue =>
        have ⟨hk, ht⟩ := keeps_stopProcess { s with probeFailures := r.2.1 } c
        exact Keeps.moved ⟨hk.pcOf, hk.reports, hk.engine, hk.runJob, hk.armed, hk.lastProfile⟩ (.watched hr) rfl (.inr ht)
      case isFalse => exact Keeps.moved ⟨fun _ => rfl, fun h => h, .inl, rfl, rfl, rfl⟩ (.watched hr)
    split
    case isTrue => exact hw _ (attempt_watch ..).2
    case isFalse => exact hw _ (attempt_watch ..).1

theorem moved_jobStep (h : s.jobStep id j e = some s') : s.Moved id j.pc e s' := by
  cases e <;> simp only [jobStep] at h
  case go => exact moved_goStep h
  case outcome ok => exact moved_outcomeStep h
  case cancelled => split at h <;> cases h; exact (Keeps.refl s).moved (.other rfl) (by simp [Pc.isLate])
  case plan rungs =>
    split at h
    case h_1 hpc =>
      split at h <;> cases h
      exact hpc ▸ Keeps.moved ((Keeps.refl s).report (by rintro ⟨⟩)) (.other rfl)
    case h_2 => cases h
  case probe p =>
    split at h <;> cases h
    case h_1 hpc => exact hpc ▸ moved_watchStep

theorem moved_step (h : s.step (.run id e) = some s') : ∃ pc, s.pcOf id = some pc ∧ s.Moved id pc e s' := by
  obtain ⟨j, hj, h⟩ := bind_eq_some_iff.mp h
  exact ⟨j.pc, by simp [State.pcOf, hj], moved_jobStep h⟩

theorem reports_cases (h : Reports pc e) :
    (∃ c, pc = .won c ∧ e = .go) ∨ ∃ c w, pc = .reverify c w ∧ e = .outcome true := by
  unfold Reports at h
  split at h
  case h_1 c => exact .inl ⟨c, rfl, rfl⟩
  case h_2 c w => exact .inr ⟨c, w, rfl, rfl⟩
  case h_3 => cases h

theorem connected_of_reports (h : s.step (.run id e) = some s') (hpc : s.pcOf id = some pc) (hr : Reports pc e) :
    s'.connection = .connected := by
  obtain ⟨j, hj, h⟩ := bind_eq_some_iff.mp h
  obtain rfl : j.pc = pc := by simpa [State.pcOf, hj] using hpc
  rcases reports_cases hr with ⟨c, hw, rfl⟩ | ⟨c, w, hw, rfl⟩
  case inl =>
    simp only [jobStep, goStep, hw] at h
    cases h
    rfl
  case inr =>
    simp only [jobStep, outcomeStep, hw] at h
    cases h
    rfl

-- Every other step leaves the coroutines where they are, or starts one.
structure Started (s : State) (l : Label) (s' : State) : Prop where
  others : ∀ i pc', s'.pcOf i = some pc' → s.pcOf i = some pc' ∨ pc'.isFirst
  reports : s'.connection = .connected → s.connection = .connected
  same : l = .destroy ∨ s.Same s'
  -- Where a session stays in charge with its protection, nothing has started.
  runJob : s'.armed = false ∨ s'.runJob = none ∨ s'.armed = s.armed ∧ s'.runJob = s.runJob ∧ ∀ i, s'.pcOf i = s.pcOf i
  engine : s'.engine = some true → s.engine = some true
  lastProfile : (∃ p, l = .connect p ∧ s'.lastProfile = some p) ∨ s'.lastProfile = s.lastProfile

theorem started_stopEverything (s : State) : s.Started l s.stopEverything where
  others i pc' h := by
    rcases pcOf_launch (show (State.launch _ (.teardown s.runJob) _).pcOf i = _ from h) with h | rfl
    case inl => exact .inl ((pcOf_cancel ..).symm.trans h)
    case inr => exact .inr rfl
  reports := by rintro ⟨⟩
  same := .inr ⟨rfl, rfl, by rintro ⟨⟩⟩
  runJob := .inl rfl
  engine h := h
  lastProfile := .inr rfl

theorem started_step (hl : l.isRun = false) (h : s.step l = some s') : s.Started l s' := by
  cases l <;> simp only [step] at h
  case run => cases hl
  case connect p =>
    split at h <;> cases h
    refine ⟨fun i pc' h => ?_, fun h => h, .inr ⟨rfl, rfl, by rintro ⟨⟩⟩, .inl rfl, fun h => h, .inl ⟨p, rfl, rfl⟩⟩
    exact (pcOf_launch (show (s.launch (.begin s.runJob s.stopJob) p).pcOf i = _ from h)).imp_right (by rintro rfl; rfl)
  case disconnect =>
    obtain ⟨-, h⟩ := ite_none_left_eq_some.mp h
    split at h
    case isTrue => cases h; exact started_stopEverything s
    case isFalse =>
      split at h <;> cases h
      case h_2 => exact started_stopEverything s
      case h_1 last _ =>
        split
        case isTrue =>
          exact ⟨fun i pc' h => pcOf_enterLockdown h, fun h => h, .inr ⟨rfl, rfl, fun h => h⟩, .inr (.inl rfl),
            fun h => h, .inr rfl⟩
        case isFalse => exact started_stopEverything s
  case revoke => split at h <;> cases h; exact started_stopEverything s
  case destroy =>
    split at h <;> cases h
    have hp (i : Nat) : ((s.jobs i).map fun j => { j with cancelled := true }).map (·.pc) = s.pcOf i := by
      simp [State.pcOf, Function.comp_def]
    exact ⟨fun i _ h => .inl ((hp i).symm.trans h), fun h => h, .inl rfl, .inr (.inr ⟨rfl, rfl, hp⟩), by rintro ⟨⟩, .inr rfl⟩
  case engineDies =>
    obtain ⟨_, -, rfl⟩ := map_eq_some_iff.mp h
    exact ⟨fun _ _ => .inl, fun h => h, .inr ⟨rfl, rfl, fun h => h⟩, .inr (.inr ⟨rfl, rfl, fun _ => rfl⟩), by rintro ⟨⟩,
      .inr rfl⟩
  case torDies =>
    split at h <;> cases h
    exact ⟨fun _ _ => .inl, fun h => h, .inr ⟨rfl, rfl, fun h => h⟩, .inr (.inr ⟨rfl, rfl, fun _ => rfl⟩), fun h => h,
      .inr rfl⟩

end State

end App.VpnService
