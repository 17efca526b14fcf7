import SoildTunnel.App.Theorems.Coroutine

-- When the kill switch keeps an interface up.
namespace App.VpnService

open Bool

namespace State

variable {s s' : State} {id : Nat} {j : Job} {l : Label} {pc : Pc} {e : Event}

-- After Connected there is an interface, and during a lockdown it is a blackhole.
structure Protected (s : State) : Prop where
  armed : s.armed → s.tun.isSome
  lockdown : s.lockdownTunActive → s.tun = some .blackhole

def Unguarded (s : State) : Prop :=
  s.armed = false ∧ s.lockdownTunActive = false

-- The moves of a coroutine that close, replace or vouch for the interface. A session that still
-- connects has nothing to protect of its own, only what another one has set up.
def JobKeepsTun (s : State) (id : Nat) : Pc → Event → Prop
  | .begin (some _) _, .go | .rungFailed _, .go =>
    (s.runJob ≠ some id → s.armed = false) ∧ s.lockdownTunActive = false
  | .attempt .., .go => s.runJob ≠ some id → s.armed = false
  | .threw, .go | .teardown _, .go => s.Unguarded
  | .establish .., .outcome true => s.lockdownTunActive = false
  | .won c, .go | .reverify c _, .outcome true =>
    s.runJob = some id → c.killSwitched → c.proxyMode = false → s.tun.isSome
  | .lockdownClose .., .go | .lockdownBuild .., .outcome false => s.Unguarded
  | .lockdownUp _, .go => s.tun = some .blackhole
  | _, _ => True

def KeepsTun (s : State) : Label → Prop
  | .destroy => s.Unguarded
  | .run id e => ∀ j ∈ s.jobs id, s.JobKeepsTun id j.pc e
  | _ => True

-- The session in charge has reported Connected before it counts as armed, and never connects again.
def InCharge (s : State) : Prop :=
  s.armed → ∀ id ∈ s.runJob, ∀ pc ∈ s.pcOf id, pc.isLate

theorem Moved.inCharge (h : s.Moved id pc e s') (hpc : s.pcOf id = some pc) (hc : s.InCharge) : s'.InCharge := by
  intro ha i hi q hq
  obtain hr | ⟨hr, ho⟩ := h.runJob
  case inl => simp [hr] at hi
  case inr =>
    rw [hr] at hi
    by_cases he : i = id
    case pos =>
      subst he
      refine h.late q hq (or_eq_true .. |>.mpr ?_)
      exact (h.armed ha).imp (fun ha => hc ha i hi pc hpc) And.right
    case neg =>
      rw [ho i he] at hq
      obtain ha | ⟨hr, _⟩ := h.armed ha
      case inl => exact hc ha i hi q hq
      case inr => exact absurd (Option.some.inj (hi.symm.trans hr)) he

theorem Started.inCharge (h : s.Started l s') (hc : s.InCharge) : s'.InCharge := by
  intro ha i hi q hq
  obtain hn | hn | ⟨hs, hr, hp⟩ := h.runJob
  case inl => simp [hn] at ha
  case inr.inl => simp [hn] at hi
  case inr.inr => exact hc (hs ▸ ha) i (hr ▸ hi) q (hp i ▸ hq)

theorem step_inCharge (hc : s.InCharge) (h : s.step l = some s') : s'.InCharge := by
  by_cases hl : l.isRun
  case neg => exact (started_step (eq_false_iff.mpr hl) h).inCharge hc
  case pos =>
    cases l <;> cases hl
    obtain ⟨pc, hpc, hm⟩ := moved_step h
    exact hm.inCharge hpc hc

theorem InCharge.armed_iff {pc : Pc} (hc : s.InCharge) (hpc : s.pcOf id = some pc)
    (hl : pc.isLate = false) : (s.runJob ≠ some id → s.armed = false) ↔ s.armed = false := by
  refine ⟨fun h => ?_, fun h _ => h⟩
  by_cases hr : s.runJob = some id
  case neg => exact h hr
  case pos =>
    cases ha : s.armed
    case false => rfl
    case true => simp [hc ha id hr pc hpc] at hl

theorem Same.protected (h : s.Same s') (hp : s.Protected) : s'.Protected :=
  ⟨fun ha => h.tun ▸ hp.armed (h.armed ha), fun hl => h.tun ▸ hp.lockdown (h.lockdown ▸ hl)⟩

theorem protected_of_closed (ht : s'.tun = none) : s'.Protected ↔ s'.Unguarded := by
  constructor
  case mp =>
    intro hp
    constructor
    · cases ha : s'.armed
      case false => rfl
      case true => simpa [ht] using hp.armed ha
    · cases hl : s'.lockdownTunActive
      case false => rfl
      case true => simpa [ht] using hp.lockdown hl
  case mpr => exact fun hu => ⟨fun ha => by simp [hu.left] at ha, fun hl => by simp [hu.right] at hl⟩

theorem cleanup_protected_iff (pc : Pc) : (s.cleanupNativeOnly.setPc id j pc).Protected ↔ s.Unguarded :=
  protected_of_closed rfl

theorem reportConnected_protected_iff (hp : s.Protected) (c : ConnectionProfile) (pc : Pc) :
    ((s.reportConnected id c).setPc id j pc).Protected ↔
      (s.runJob = some id → c.killSwitched → c.proxyMode = false → s.tun.isSome) := by
  constructor
  case mp =>
    intro h hr hk hm
    exact h.armed (by simp [setPc, reportConnected, hr, hk, hm])
  case mpr =>
    refine fun h => ⟨fun ha => ?_, hp.lockdown⟩
    simp only [setPc, reportConnected, or_eq_true, and_eq_true, decide_eq_true_eq,
      not_eq_true'] at ha
    rcases ha with ha | ⟨⟨hr, hk⟩, hm⟩
    · exact hp.armed ha
    · exact h hr hk hm

theorem jobKeepsTun_of_untouched (h : (TouchesTun pc e || Reports pc e) = false) : s.JobKeepsTun id pc e := by
  unfold JobKeepsTun
  split <;> trivial

theorem establish_protected_iff {c : ConnectionProfile} {rest : Option (List ConnectionProfile)} {pc : Pc} :
    ({ s with tun := some .vpn }.setPc id j pc).Protected ↔ s.JobKeepsTun id (.establish c rest) (.outcome true) := by
  constructor
  case mp =>
    intro h
    cases hl : s.lockdownTunActive
    case false => exact hl
    case true => cases h.lockdown hl
  case mpr =>
    intro hl
    have hl : s.lockdownTunActive = false := hl
    exact ⟨fun _ => rfl, fun ha => by simp [setPc, hl] at ha⟩

theorem goStep_protected_iff (hc : s.InCharge) (hj : s.pcOf id = some j.pc) (hp : s.Protected)
    (ht : TouchesTun j.pc .go || Reports j.pc .go) (h : s.goStep id j = some s') :
    s'.Protected ↔ s.JobKeepsTun id j.pc .go := by
  cases hpc : j.pc <;> simp only [goStep, hpc] at h <;> rw [hpc] at hj ht
  case begin run stop =>
    cases run <;> cases h
    case none => cases ht
    case some => exact (cleanup_protected_iff _).trans (and_congr_left' (hc.armed_iff hj rfl)).symm
  case threw | teardown => cases h; exact cleanup_protected_iff _
  case attempt =>
    cases h
    exact (protected_of_closed rfl).trans ((and_iff_left rfl).trans (hc.armed_iff hj rfl).symm)
  case rungFailed =>
    cases h
    exact (cleanup_protected_iff _).trans (and_congr_left' (hc.armed_iff hj rfl)).symm
  case won c => cases h; exact reportConnected_protected_iff hp c _
  case lockdownClose => cases h; exact protected_of_closed rfl
  case lockdownUp =>
    cases h
    refine ⟨fun h => h.lockdown rfl, fun ht => ?_⟩
    have ht : s.tun = some .blackhole := ht
    exact ⟨fun _ => by simp [setPc, ht], fun _ => ht⟩
  all_goals cases ht

theorem outcomeStep_protected_iff (hp : s.Protected) {ok : Bool}
    (ht : TouchesTun j.pc (.outcome ok) || Reports j.pc (.outcome ok)) (h : s.outcomeStep id j ok = some s') :
    s'.Protected ↔ s.JobKeepsTun id j.pc (.outcome ok) := by
  cases hpc : j.pc <;> simp only [outcomeStep, hpc] at h <;> rw [hpc] at ht
  case establish c rest =>
    cases ok <;> cases h
    case false => cases ht
    case true => exact establish_protected_iff
  case lockdownBuild c job =>
    cases ok <;> cases h
    case false => exact protected_of_closed rfl
    case true => exact iff_true_intro ⟨fun _ => rfl, fun _ => rfl⟩
  case reverify c w =>
    cases ok <;> cases h
    case false => cases ht
    case true => exact reportConnected_protected_iff hp c _
  case begin => cases h
  all_goals cases ht

theorem jobStep_protected_iff (hc : s.InCharge) (hj : s.pcOf id = some j.pc) (hp : s.Protected)
    (h : s.jobStep id j e = some s') : s'.Protected ↔ s.JobKeepsTun id j.pc e := by
  cases ht : TouchesTun j.pc e || Reports j.pc e
  case false =>
    have hs := (moved_jobStep h).same.resolve_left (by simp [ht])
    exact iff_of_true (hs.protected hp) (jobKeepsTun_of_untouched ht)
  case true =>
    cases e
    case go => exact goStep_protected_iff hc hj hp ht h
    case outcome ok => exact outcomeStep_protected_iff hp ht h
    all_goals
      cases hpc : j.pc <;> rw [hpc] at ht
      case begin r _ => cases r <;> cases ht
      all_goals cases ht

theorem step_protected_iff (hc : s.InCharge) (hp : s.Protected) (h : s.step l = some s') :
    s'.Protected ↔ s.KeepsTun l := by
  by_cases hl : l.isRun
  case neg =>
    have hs := (started_step (eq_false_iff.mpr hl) h).same
    cases l
    case run => exact absurd rfl hl
    case destroy =>
      rw [step] at h
      split at h <;> cases h
      exact protected_of_closed rfl
    all_goals exact iff_true_intro ((hs.resolve_left (by rintro ⟨⟩)).protected hp)
  case pos =>
    cases l <;> cases hl
    obtain ⟨j, hj, h⟩ := Option.bind_eq_some_iff.mp h
    rw [jobStep_protected_iff hc (by simp [pcOf, hj]) hp h]
    simp [KeepsTun, hj]

-- The kill switch holds throughout a run exactly when no coroutine closes, replaces or vouches for
-- the interface at the wrong time.
theorem always_protected_iff (ls : List Label) :
    Lts.Always step Protected {} ls ↔ Lts.Admits step KeepsTun {} ls := by
  refine Lts.always_iff_admits (I := InCharge) ?_ ?_ nofun ⟨nofun, nofun⟩
  · exact fun _ _ _ hc _ h _ => step_inCharge hc h
  · exact fun _ _ _ hc hp h => step_protected_iff hc hp h

def portBusy : List Label :=
  [.connect { killSwitch := true, protocol := .masque }, .run 0 .go, .run 0 .go,
    .run 0 (.plan [{ killSwitch := true, protocol := .masque }]), .run 0 .go, .run 0 .go,
    .run 0 (.outcome true), .run 0 (.outcome true), .run 0 (.outcome true), .run 0 (.outcome true),
    .run 0 (.outcome true), .run 0 .go, .engineDies, .run 0 .go, .run 0 (.outcome false), .run 0 .go]

theorem not_always_protected : ¬ Lts.Always step Protected {} portBusy := by
  intro h
  have hx : (Lts.exec step {} portBusy).any (fun s => s.armed && s.tun = none) := by
    decide +kernel
  have ⟨s, hs, hl⟩ := (Option.any_eq_true ..).mp hx
  simp only [and_eq_true, decide_eq_true_eq] at hl
  have hp : s.Protected := h.last hs
  simpa [hl.right] using hp.armed hl.left

end State

end App.VpnService
