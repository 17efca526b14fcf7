import SoildTunnel.App.Theorems.Ladder
import SoildTunnel.App.Theorems.Coroutine
import SoildTunnel.App.TunConfig

-- The address families of the TUN interface, and those in the configuration of the process behind it.
namespace App.VpnService

open Kotlin List Option
open SmartAuto

inductive Family
  | v4
  | v6
deriving DecidableEq

def Family.key : Family → Text
  | .v4 => lit "  ipv4: "
  | .v6 => lit "  ipv6: "

def Family.address : Family → Text
  | .v4 => TUN_IPV4
  | .v6 => TUN_IPV6

def names (yaml : List Text) (f : Family) : Bool :=
  yaml.any fun line => f.key.isPrefixOf line

def TunConfig.has (t : TunConfig) (f : Family) : Bool :=
  t.addresses.any fun a => a.1 = f.address

def Family.pick (v4 v6 : Bool) : Family → Bool
  | .v4 => v4
  | .v6 => v6

def Family.isIn (f : Family) (p : ConnectionProfile) : Bool :=
  f.pick (isV4 p) (isV6 p)

section Families

variable (f : Family)

theorem any_addresses (v4 v6 : Bool) :
    (((if v4 then [(TUN_IPV4, 30)] else []) ++ (if v6 then [(TUN_IPV6, 126)] else [])).any fun a => a.1 = f.address) =
      f.pick v4 v6 := by
  cases f <;> cases v4 <;> cases v6 <;> decide

theorem has_establishTun (dev : Device) (p : ConnectionProfile) : (establishTun dev p).has f = f.isIn p :=
  any_addresses f (isV4 p) (isV6 p)

theorem names_append (a b : List Text) : names (a ++ b) f = (names a f || names b f) :=
  any_append

theorem names_hevAddresses {v4 v6 : Bool} (h : v4 || v6) : names (hevAddresses v4 v6) f = f.pick v4 v6 := by
  revert h
  cases f <;> cases v4 <;> cases v6 <;> decide

theorem names_writeHevConfig (p : ConnectionProfile) (mtu port : Nat) :
    names (writeHevConfig (some p) mtu port) f = f.isIn p := by
  have hp : isV4 p || isV6 p := by
    unfold isV4 isV6
    cases p.ipVersion <;> rfl
  have hm : names [lit "tunnel:", lit "  mtu: " ++ lit (toString mtu)] f = false := by cases f <;> rfl
  have hs : names (hevSocks port) f = false := by cases f <;> rfl
  rw [writeHevConfig, names_append, names_append, hm, hs, any_some, any_some, names_hevAddresses f hp]
  simp [Family.isIn]

end Families

section LastProfile

variable {s s' : State}

theorem lastProfile_step {l : Label} (h : s.step l = some s') :
    (∃ p, l = .connect p ∧ s'.lastProfile = some p) ∨ s'.lastProfile = s.lastProfile := by
  by_cases hl : l.isRun
  case neg => exact (State.started_step (Bool.eq_false_iff.mpr hl) h).lastProfile
  case pos =>
    cases l <;> cases hl
    obtain ⟨_, -, hm⟩ := State.moved_step h
    exact .inr hm.lastProfile

def Label.AsksFor (v : IpVersion) : Label → Prop
  | .connect p => p.ipVersion = v
  | _ => True

theorem lastProfile_exec {v : IpVersion} {run : List Label} (hr : ∀ l ∈ run, l.AsksFor v)
    (hs : ∃ p ∈ s.lastProfile, p.ipVersion = v) (h : Lts.exec State.step s run = some s') :
    ∃ p ∈ s'.lastProfile, p.ipVersion = v := by
  induction run generalizing s
  case nil =>
    cases h
    exact hs
  case cons l run ih =>
    obtain ⟨t, ht, h⟩ := bind_eq_some_iff.mp h
    refine ih (fun l hl => hr l (mem_cons_of_mem _ hl)) ?_ h
    obtain ⟨p, rfl, hp⟩ | hl := lastProfile_step ht
    case inl => exact ⟨p, hp, hr _ mem_cons_self⟩
    case inr => exact hl ▸ hs

end LastProfile

section Ladder

variable {user c : ConnectionProfile}

theorem exists_exec_cons {s t : State} {id : Nat} {j : Job} {e : Event} {es : List Event} {pc' : Pc} (pc : Pc)
    (hj : s.jobs id = some j) (he : s.jobStep id j e = some (t.setPc id j pc))
    (h : ∀ s, s.jobs id = some { j with pc } →
      ∃ s', Lts.exec State.step s (es.map (.run id)) = some s' ∧ s'.pcOf id = some pc') :
    ∃ s', Lts.exec State.step s ((e :: es).map (.run id)) = some s' ∧ s'.pcOf id = some pc' := by
  have hs : s.step (.run id e) = some (t.setPc id j pc) := by rw [State.step, hj, bind_some, he]
  obtain ⟨s', hx, hp⟩ := h (t.setPc id j pc) (Function.update_self ..)
  exact ⟨s', by rw [map_cons, Lts.exec_cons, hs, bind_some, hx], hp⟩

variable {before after : List ConnectionProfile}

def fail : List Event :=
  [.go, .go, .outcome false, .go]

def climb (before : List ConnectionProfile) (c : ConnectionProfile) (after : List ConnectionProfile) : List Event :=
  .go :: .go :: .plan (before ++ c :: after) :: (before.flatMap (fun _ => fail) ++
    [.go, .go, .outcome true, .outcome true, .outcome true])

theorem exists_exec_fail {s : State} {id : Nat} {j : Job} {es : List Event} {pc' : Pc}
    (hj : s.jobs id = some { j with pc := .ladder (before ++ c :: after) })
    (h : ∀ s, s.jobs id = some { j with pc := .ladder (c :: after) } →
      ∃ s', Lts.exec State.step s (es.map (.run id)) = some s' ∧ s'.pcOf id = some pc') :
    ∃ s', Lts.exec State.step s ((before.flatMap (fun _ => fail) ++ es).map (.run id)) = some s' ∧
      s'.pcOf id = some pc' := by
  induction before generalizing s
  case nil => exact h s hj
  case cons b before ih =>
    refine exists_exec_cons (.attempt b (some (before ++ c :: after))) hj rfl fun s hj => ?_
    refine exists_exec_cons (.spawn b (some (before ++ c :: after))) hj rfl fun s hj => ?_
    refine exists_exec_cons (.rungFailed (before ++ c :: after)) hj rfl fun s hj => ?_
    exact exists_exec_cons (.ladder (before ++ c :: after)) hj rfl fun s hj => ih hj

-- The candidates before it have failed when this one comes to the step.
theorem exists_forward (hu : isTor user = false) (hc : State.isPlan user (before ++ c :: after))
    (hp : c.proxyMode = false) :
    ∃ s, Lts.exec State.step (({} : State).startTunnel user) ((climb before c after).map (.run 0)) = some s ∧
      s.pcOf 0 = some (.forward c (some after)) := by
  have ht : isTor c = false := by
    have hm := all_eq_true.mp hc c (by simp)
    simp only [Bool.and_eq_true, decide_eq_true_eq] at hm
    simp [isTor, hm.2]
  refine exists_exec_cons (.joinStop none) rfl rfl fun s hj => ?_
  refine exists_exec_cons .flow hj rfl fun s hj => ?_
  refine exists_exec_cons (.ladder (before ++ c :: after)) hj (if_pos (by simp [hu, hc])) fun s hj => ?_
  refine exists_exec_fail hj fun s hj => ?_
  refine exists_exec_cons (.attempt c (some after)) hj rfl fun s hj => ?_
  refine exists_exec_cons (.spawn c (some after)) hj rfl fun s hj => ?_
  refine exists_exec_cons (.awaitOpen c (some after)) hj (by simp only [State.jobStep, State.outcomeStep, ht]; rfl)
    fun s hj => ?_
  refine exists_exec_cons (.establish c (some after)) hj (by simp only [State.jobStep, State.outcomeStep, hp]; rfl)
    fun s hj => ?_
  refine exists_exec_cons (.forward c (some after)) hj rfl fun s hj => ?_
  exact ⟨s, rfl, by simp [State.pcOf, hj]⟩

variable {fp : NetworkFingerprint} {stickyRange : Option Text} {memo : Option Recipe} {a : AutoCandidate}

theorem ipVersion_directPlan (h : a ∈ directPlan user) : a.profile.ipVersion = user.ipVersion := by
  have he : (effective user).ipVersion = user.ipVersion := by
    unfold effective
    split <;> rfl
  unfold directPlan at h
  dsimp only at h
  split at h
  case isTrue =>
    obtain rfl := mem_singleton.mp h
    exact he
  case isFalse =>
    obtain rfl | h := mem_cons.mp h
    case inl => exact he
    case inr =>
      obtain rfl := mem_singleton.mp h
      exact he

theorem ipVersion_ladderOf (h : a ∈ ladderOf user fp stickyRange memo) : a.profile.ipVersion = user.ipVersion ∨
      user.protocol = .auto ∧ a.profile.proxyMode = user.proxyMode ∧ a.profile.blockedApps = user.blockedApps ∧
      Widens user fp := by
  unfold ladderOf at h
  split at h
  case h_1 => cases h
  case h_2 hp =>
    obtain ⟨_, _, -, hb⟩ := planned_of_mem h
    exact (ipVersion_of_mem h).imp_right fun hw => ⟨hp, hb.built.proxyMode, hb.built.blockedApps, hw⟩
  case h_3 =>
    obtain rfl := mem_singleton.mp h
    exact .inl rfl
  all_goals exact .inl (ipVersion_directPlan h)

-- The candidates as the service tries them. Tor is none of them, and never remembered.
variable (user fp stickyRange memo) in
def rungsOf : List ConnectionProfile :=
  ((ladderOf user fp stickyRange memo).map (·.profile)).filter (·.protocol ≠ .tor)

theorem isPlan_rungsOf (hp : user.protocol = .auto) : State.isPlan user (rungsOf user fp stickyRange memo) := by
  refine all_eq_true.mpr fun c hc => ?_
  obtain ⟨hm, hn⟩ := mem_filter.mp hc
  obtain ⟨a, ha, rfl⟩ := mem_map.mp hm
  rw [ladderOf, hp] at ha
  obtain ⟨_, _, -, hb⟩ := planned_of_mem ha
  simp [hb.built.killSwitch, hb.built.proxyMode, of_decide_eq_true hn]

-- Where the plan has a candidate with both families, and the user has one.
variable (stickyRange memo) in
theorem exists_widened (hp : user.protocol = .auto) (hw : Widens user fp) :
    ∃ a ∈ ladderOf user fp stickyRange memo, a.profile.ipVersion = .both ∧
      a.profile.proxyMode = user.proxyMode ∧ a.profile.blockedApps = user.blockedApps ∧ a.profile.protocol ≠ .tor := by
  have hr : rung user fp stickyRange (firstRung fp.dpiClass) ∈ memo.toList.map (memoRung user fp) ++
      SmartAuto.ladder user fp stickyRange ++ [fallback user fp stickyRange] := by simp [SmartAuto.ladder]
  obtain ⟨a, ha, he⟩ : ∃ a ∈ buildPlan user fp stickyRange memo,
      a.profile = (rung user fp stickyRange (firstRung fp.dpiClass)).profile := Distinct.exists_key_distinctBy hr
  have hb : Built user fp (unlocked user fp (firstRung fp.dpiClass)) a.profile := he ▸ candidateProfile_built _
  have hd : (unlocked user fp (firstRung fp.dpiClass)).dual = true := by
    simp [unlocked, hw.1, hw.2.1, (dual_firstRung _).mpr hw.2.2]
  have hn : a.profile.protocol ≠ .tor := by
    rw [hb.protocol]
    change (firstRung fp.dpiClass).proto ≠ _
    obtain h | h := firstRung_proto fp.dpiClass
    all_goals simp [h]
  refine ⟨a, by rw [ladderOf, hp]; exact ha, by rw [hb.ipVersion, if_pos hd], hb.proxyMode, hb.blockedApps, hn⟩

end Ladder

theorem isIn_congr {p q : ConnectionProfile} (h : p.ipVersion = q.ipVersion) (f : Family) : f.isIn p = f.isIn q := by
  simp only [Family.isIn, isV4, isV6, h]

theorem names_hevConfig {s₀ s : State} {run : List Label} {user : ConnectionProfile}
    (hr : ∀ l ∈ run, l.AsksFor user.ipVersion) (hx : Lts.exec State.step (s₀.startTunnel user) run = some s)
    (c : ConnectionProfile) (f : Family) : names (s.hevConfig c) f = f.isIn user := by
  obtain ⟨p, hp, hv⟩ := lastProfile_exec hr ⟨user, rfl, rfl⟩ hx
  rw [State.hevConfig, mem_def.mp hp, names_writeHevConfig, isIn_congr hv]

theorem asksFor_climb {v : IpVersion} {before after : List ConnectionProfile} {c : ConnectionProfile} :
    ∀ l ∈ (climb before c after).map (Label.run 0), l.AsksFor v := by
  intro l hl
  obtain ⟨e, -, rfl⟩ := mem_map.mp hl
  trivial

theorem hevConfig_establishTun_iff (dev : Device) (user : ConnectionProfile) (fp : NetworkFingerprint)
    (stickyRange : Option Text) (memo : Option Recipe) :
    (∀ (s₀ : State) (run : List Label) (s : State) (id : Nat) (a : AutoCandidate) (rest : Option (List ConnectionProfile)),
      (∀ l ∈ run, l.AsksFor user.ipVersion) → Lts.exec State.step (s₀.startTunnel user) run = some s →
      a ∈ ladderOf user fp stickyRange memo → s.pcOf id = some (.forward a.profile rest) →
      a.profile.proxyMode = false → a.profile.blockedApps = [] →
      ∀ f, names (s.hevConfig a.profile) f = (establishTun dev a.profile).has f) ↔
    ¬ (user.protocol = .auto ∧ user.proxyMode = false ∧ user.blockedApps = [] ∧
      fp.v6EdgeOk ∧ user.ipVersion = .v4 ∧ (fp.dpiClass = .open ∨ fp.dpiClass = .sniFiltering)) := by
  constructor
  case mp =>
    rintro h ⟨hp, hm, hb, hw⟩
    obtain ⟨a, ha, hv, hm', hb', hn⟩ := exists_widened stickyRange memo hp hw
    have hr : a.profile ∈ rungsOf user fp stickyRange memo := mem_filter.mpr ⟨mem_map_of_mem ha, by simpa using hn⟩
    obtain ⟨before, after, he⟩ := append_of_mem hr
    obtain ⟨s, hx, hs⟩ := exists_forward (by simp [isTor, hp]) (he ▸ isPlan_rungsOf hp) (hm'.trans hm)
    have hf := h {} _ s 0 a _ asksFor_climb hx ha hs (hm'.trans hm) (hb'.trans hb) .v6
    rw [names_hevConfig asksFor_climb hx, has_establishTun] at hf
    simp [Family.isIn, Family.pick, isV6, hv, hw.2.1] at hf
  case mpr =>
    intro h s₀ run s id a rest hr hx ha hs hm hb f
    rw [names_hevConfig hr hx, has_establishTun]
    obtain hv | ⟨hp, hm', hb', hw⟩ := ipVersion_ladderOf ha
    case inl => exact isIn_congr hv.symm f
    case inr => exact absurd ⟨hp, hm'.symm.trans hm, hb'.symm.trans hb, hw⟩ h

-- On an open network the first candidate gets an IPv6 address that the process behind the interface does not know.
theorem hevConfig_ipv6_missing :
    let a := rung {} openNetwork none (firstRung .open)
    ∃ rest, rungsOf {} openNetwork none none = a.profile :: rest ∧
      a ∈ ladderOf {} openNetwork none none ∧ a.profile.proxyMode = false ∧ a.profile.blockedApps = [] ∧
      (∃ s, Lts.exec State.step (({} : State).startTunnel {}) ((climb [] a.profile rest).map (.run 0)) = some s ∧
        s.pcOf 0 = some (.forward a.profile (some rest)) ∧ names (s.hevConfig a.profile) .v6 = false) ∧
      ∀ dev, (establishTun dev a.profile).has .v6 = true := by
  intro a
  have ha : rungsOf {} openNetwork none none = a.profile :: (rungsOf {} openNetwork none none).tail ∧
      a ∈ ladderOf {} openNetwork none none ∧ a.profile.proxyMode = false ∧ a.profile.blockedApps = [] ∧
      isV6 a.profile = true := by decide +kernel
  obtain ⟨he, hmem, hm, hb, hv⟩ := ha
  have hplan : State.isPlan {} ([] ++ a.profile :: (rungsOf {} openNetwork none none).tail) :=
    he ▸ isPlan_rungsOf rfl
  obtain ⟨s, hx, hs⟩ := exists_forward (by rfl) hplan hm
  exact ⟨_, he, hmem, hm, hb, ⟨s, hx, hs, names_hevConfig asksFor_climb hx a.profile .v6⟩,
    fun dev => (has_establishTun .v6 dev a.profile).trans hv⟩

end App.VpnService
