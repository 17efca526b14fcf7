import SoildTunnel.App.SmartAuto

-- What the strategies of a plan keep of the user's profile, and what is lost when the winner is remembered.
namespace App.SmartAuto

open Kotlin List

-- The tunnel inside another one, which always scans by itself.
def CarriedMode (p : ConnectionProfile) : Prop :=
  p.protocol = .gool ∧ p.goolMode = .onMasque ∨ p.protocol = .soild ∧ p.soildHunt
deriving Decidable

structure Built (user : ConnectionProfile) (fp : NetworkFingerprint) (r : Rung) (p : ConnectionProfile) : Prop where
  protocol : p.protocol = r.proto
  noize : p.noize = mergedNoize user fp r
  masqueHttp2 : p.masqueHttp2 = (user.masqueHttp2 || (r.h2 && r.proto = .masque))
  fragment : p.fragment = (user.fragment || r.frag)
  ech : p.ech = (user.ech || r.ech)
  ipVersion : p.ipVersion = if r.dual then .both else user.ipVersion
  soildHunt : p.soildHunt = if r.proto = .soild ∧ r.forceHunt then true else user.soildHunt
  goolMode : p.goolMode = user.goolMode
  manualPeer : p.manualPeer = user.manualPeer
  proxyMode : p.proxyMode = user.proxyMode
  blockedApps : p.blockedApps = user.blockedApps
  killSwitch : p.killSwitch = user.killSwitch ∧ p.strictKillSwitch = user.strictKillSwitch

def endpointOf (user : ConnectionProfile) (ranges : Text) (p : ConnectionProfile) : EndpointMode × Text :=
  if CarriedMode p then (.auto, [])
  else if user.endpointMode ≠ .auto then (user.endpointMode, user.manualRange)
  else if ranges = [] then (.auto, user.manualRange)
  else (.manualRange, ranges)

def endpoint (p : ConnectionProfile) : EndpointMode × Text :=
  (p.endpointMode, p.manualRange)

section Candidate

variable {user p : ConnectionProfile} {fp : NetworkFingerprint} {ranges : Text} {r : Rung}

theorem Built.endpoint (h : Built user fp r p) (mode : EndpointMode) (range : Text) :
    Built user fp r { p with endpointMode := mode, manualRange := range } :=
  ⟨h.protocol, h.noize, h.masqueHttp2, h.fragment, h.ech, h.ipVersion, h.soildHunt, h.goolMode, h.manualPeer,
    h.proxyMode, h.blockedApps, h.killSwitch⟩

theorem Built.scan (h : Built user fp r p) (scanMode : ScanMode) : Built user fp r { p with scanMode } :=
  ⟨h.protocol, h.noize, h.masqueHttp2, h.fragment, h.ech, h.ipVersion, h.soildHunt, h.goolMode, h.manualPeer,
    h.proxyMode, h.blockedApps, h.killSwitch⟩

theorem mergedProfile_built : Built user fp r (mergedProfile user fp r) :=
  ⟨rfl, rfl, rfl, rfl, rfl, rfl, rfl, rfl, rfl, rfl, rfl, rfl, rfl⟩

theorem Built.narrow (h : Built user fp r p) (keep : Bool) : Built user fp r (narrow ranges keep p) := by
  unfold SmartAuto.narrow
  split
  case isTrue => exact h.endpoint _ _
  case isFalse => exact h

theorem Built.release (h : Built user fp r p) (proto : Protocol) : Built user fp r (release proto p) := by
  unfold SmartAuto.release
  split
  case isTrue => exact h.endpoint _ _
  case isFalse => exact h

theorem candidateProfile_built (keep : Bool) : Built user fp r (candidateProfile user fp ranges keep r) :=
  (mergedProfile_built.narrow keep).release r.proto

theorem release_carriedMode (proto : Protocol) : CarriedMode (release proto p) ↔ CarriedMode p := by
  unfold release
  split
  case isTrue => rfl
  case isFalse => rfl

theorem endpoint_release : endpoint (release p.protocol p) = if CarriedMode p then (.auto, []) else endpoint p := by
  unfold release
  change endpoint (if CarriedMode p then _ else p) = _
  split
  case isTrue => rfl
  case isFalse => rfl

theorem endpoint_narrow (h : endpoint p = endpoint user) : endpoint (narrow ranges (keepUserEndpoint user) p) =
      if user.endpointMode ≠ .auto then (user.endpointMode, user.manualRange)
      else if ranges = [] then (.auto, user.manualRange)
      else (.manualRange, ranges) := by
  unfold narrow keepUserEndpoint
  by_cases hu : user.endpointMode = .auto
  case neg => simpa [hu, endpoint] using h
  case pos =>
    by_cases hr : ranges = []
    case pos => simpa [hu, hr, endpoint] using h
    case neg => simp [hu, hr, endpoint]

theorem endpoint_candidateProfile : endpoint (candidateProfile user fp ranges (keepUserEndpoint user) r) =
      endpointOf user ranges (candidateProfile user fp ranges (keepUserEndpoint user) r) := by
  have hp : (narrow ranges (keepUserEndpoint user) (mergedProfile user fp r)).protocol = r.proto :=
    (mergedProfile_built.narrow _).protocol
  have hm : endpoint (mergedProfile user fp r) = endpoint user := rfl
  unfold candidateProfile endpointOf
  rw [← hp, endpoint_release, endpoint_narrow hm]
  simp only [release_carriedMode]

end Candidate

section Noize

variable {user : ConnectionProfile} {fp : NetworkFingerprint} {r : Rung}

def merge (u n : Noize) (iranCellular carriedOuter : Bool) : Noize :=
  let m := if u.ordinal ≥ n.ordinal then u else n
  let m := if m = .off ∧ iranCellular then .light else m
  if carriedOuter ∧ m.ordinal > Noize.firewall.ordinal then .firewall else m

theorem mergedNoize_eq : mergedNoize user fp r = merge user.noize r.noize fp.iranCellular (carriedOuter user r) := rfl

theorem ordinal_le_merge (u n : Noize) (iranCellular carriedOuter : Bool) :
    u.ordinal ≤ (merge u n iranCellular carriedOuter).ordinal ∨
      merge u n iranCellular carriedOuter = .firewall ∧ carriedOuter = true := by
  cases u <;> cases n <;> cases iranCellular <;> cases carriedOuter <;> decide

theorem merge_merge (u n : Noize) (iranCellular carriedOuter : Bool) :
    merge u (merge u n iranCellular carriedOuter) iranCellular carriedOuter = merge u n iranCellular carriedOuter := by
  cases u <;> cases n <;> cases iranCellular <;> cases carriedOuter <;> rfl

end Noize

variable {p : ConnectionProfile} {r : Rung}

section Plan

variable {user : ConnectionProfile} {fp : NetworkFingerprint} {stickyRange : Option Text} {memo : Option Recipe}
  {c : AutoCandidate}

theorem forceHunt_of_soild {d : DpiClass} (h : r ∈ firstRung d :: otherRungs d) :
    (unlocked user fp r).proto = .soild → (unlocked user fp r).forceHunt := by
  change r.proto = .soild → r.forceHunt
  cases d
  all_goals
    simp only [firstRung, otherRungs, mem_cons, not_mem_nil, or_false] at h
    rcases h with rfl | rfl | rfl | rfl | rfl <;> simp

theorem mem_buildPlan (h : c ∈ buildPlan user fp stickyRange memo) : (∃ m ∈ memo, c = memoRung user fp m) ∨
    (∃ r ∈ firstRung fp.dpiClass :: otherRungs fp.dpiClass, c = rung user fp stickyRange r) ∨
    c = fallback user fp stickyRange := by
  have hm := Distinct.mem_of_mem_distinctBy h
  rw [mem_append, mem_append, mem_singleton] at hm
  obtain (hm | hl) | hf := hm
  case inl.inl =>
    obtain ⟨m, hmem, rfl⟩ := mem_map.mp hm
    exact .inl ⟨m, Option.mem_toList.mp hmem, rfl⟩
  case inl.inr =>
    obtain ⟨r, hr, rfl⟩ := mem_map.mp hl
    exact .inr (.inl ⟨r, hr, rfl⟩)
  case inr => exact .inr (.inr hf)

theorem firstRung_proto (d : DpiClass) : (firstRung d).proto = .wireguard ∨ (firstRung d).proto = .masque := by
  cases d <;> simp [firstRung]

theorem fallback_built : Built user fp (unlocked user fp (firstRung fp.dpiClass)) (fallback user fp stickyRange).profile := by
  have h : Built user fp (unlocked user fp (firstRung fp.dpiClass))
      { (rung user fp stickyRange (firstRung fp.dpiClass)).profile with scanMode := user.scanMode } :=
    (candidateProfile_built _).scan _
  unfold fallback
  dsimp only
  split
  case isTrue => exact h
  case isFalse => exact h.endpoint _ _

theorem not_carriedMode_of_firstRung (h : p.protocol = (firstRung fp.dpiClass).proto) : ¬ CarriedMode p := by
  unfold CarriedMode
  rw [h]
  obtain h | h := firstRung_proto fp.dpiClass
  all_goals simp [h]

theorem endpoint_fallback : endpoint (fallback user fp stickyRange).profile =
    endpointOf user [] (fallback user fp stickyRange).profile := by
  have hc : ¬ CarriedMode (fallback user fp stickyRange).profile := not_carriedMode_of_firstRung fallback_built.protocol
  unfold endpointOf
  rw [if_neg hc]
  by_cases hu : user.endpointMode = .auto
  case pos =>
    have hk : keepUserEndpoint user = false := by simp [keepUserEndpoint, hu]
    simp [fallback, hk, hu, endpoint]
  case neg =>
    have hk : keepUserEndpoint user = true := by simp [keepUserEndpoint, hu]
    have hn : ¬ CarriedMode (rung user fp stickyRange (firstRung fp.dpiClass)).profile :=
      not_carriedMode_of_firstRung (candidateProfile_built _).protocol
    have he : endpoint (fallback user fp stickyRange).profile =
        endpoint (rung user fp stickyRange (firstRung fp.dpiClass)).profile := by
      simp [fallback, hk, endpoint]
    have hr : endpoint (rung user fp stickyRange (firstRung fp.dpiClass)).profile =
        endpointOf user (bestRanges fp stickyRange) (rung user fp stickyRange (firstRung fp.dpiClass)).profile :=
      endpoint_candidateProfile
    rw [he, hr, endpointOf, if_neg hn, if_pos hu, if_pos hu]

structure Planned (user : ConnectionProfile) (fp : NetworkFingerprint) (r : Rung) (ranges : Text)
    (p : ConnectionProfile) : Prop where
  built : Built user fp r p
  endpoint : endpoint p = endpointOf user ranges p
  forceHunt : r.proto = .soild → r.forceHunt

theorem planned_of_mem (h : c ∈ buildPlan user fp stickyRange memo) :
    ∃ r, ∃ ranges ∈ [] :: bestRanges fp stickyRange :: memo.toList.map (·.range.trim),
      Planned user fp r ranges c.profile := by
  obtain ⟨m, hm, rfl⟩ | ⟨r, hr, rfl⟩ | rfl := mem_buildPlan h
  case inl =>
    obtain rfl := hm
    exact ⟨_, m.range.trim, by simp, candidateProfile_built _, endpoint_candidateProfile, by simp⟩
  case inr.inl =>
    exact ⟨_, bestRanges fp stickyRange, by simp, candidateProfile_built _, endpoint_candidateProfile,
      forceHunt_of_soild hr⟩
  case inr.inr =>
    exact ⟨_, [], by simp, fallback_built, endpoint_fallback, forceHunt_of_soild mem_cons_self⟩

theorem dual_firstRung (d : DpiClass) : (firstRung d).dual = true ↔ d = .open ∨ d = .sniFiltering := by
  cases d <;> simp [firstRung]

theorem dual_of_mem {d : DpiClass} (h : r ∈ firstRung d :: otherRungs d) (hr : r.dual) :
    d = .open ∨ d = .sniFiltering := by
  cases d <;> simp only [reduceCtorEq, or_true, or_false, or_self]
  all_goals
    simp only [firstRung, otherRungs, mem_cons, not_mem_nil, or_false] at h
    rcases h with rfl | rfl | rfl | rfl | rfl <;> cases hr

-- Where a step of the ladder has both families although the user has not.
def Widens (user : ConnectionProfile) (fp : NetworkFingerprint) : Prop :=
  fp.v6EdgeOk ∧ user.ipVersion = .v4 ∧ (fp.dpiClass = .open ∨ fp.dpiClass = .sniFiltering)

theorem Built.ipVersion_unlocked (h : Built user fp (unlocked user fp r) p)
    (hr : r ∈ firstRung fp.dpiClass :: otherRungs fp.dpiClass) : p.ipVersion = user.ipVersion ∨ Widens user fp := by
  rw [h.ipVersion]
  split
  case isTrue hd =>
    simp only [unlocked, Bool.and_eq_true, decide_eq_true_eq] at hd
    exact .inr ⟨hd.1.1, hd.2, dual_of_mem hr hd.1.2⟩
  case isFalse => exact .inl rfl

theorem ipVersion_of_mem (h : c ∈ buildPlan user fp stickyRange memo) :
    c.profile.ipVersion = user.ipVersion ∨ Widens user fp := by
  obtain ⟨m, -, rfl⟩ | ⟨r, hr, rfl⟩ | rfl := mem_buildPlan h
  case inl => exact .inl (candidateProfile_built _).ipVersion
  case inr.inl => exact (candidateProfile_built _).ipVersion_unlocked hr
  case inr.inr => exact fallback_built.ipVersion_unlocked mem_cons_self

theorem carriedMode_iff (h : Built user fp r p) :
    CarriedMode p ↔ r.proto = .gool ∧ user.goolMode = .onMasque ∨ r.proto = .soild ∧ (user.soildHunt ∨ r.forceHunt) := by
  unfold CarriedMode
  rw [h.protocol, h.goolMode, h.soildHunt]
  split
  case isTrue hs => simp [hs]
  case isFalse hs =>
    by_cases hp : r.proto = .soild
    case pos => simp_all
    case neg => simp [hp]

theorem carriedOuter_iff (h : Built user fp r p) :
    carriedOuter user r = true ↔ p.protocol = .masque ∨ CarriedMode p := by
  rw [carriedMode_iff h, h.protocol]
  simp only [carriedOuter, Bool.or_eq_true, decide_eq_true_eq, Bool.and_eq_true]
  tauto

end Plan

structure Keeps (user p : ConnectionProfile) : Prop where
  fragment : user.fragment → p.fragment
  ech : user.ech → p.ech
  masqueHttp2 : user.masqueHttp2 → p.masqueHttp2
  ipVersion : p.ipVersion = user.ipVersion ∨ p.ipVersion = .both
  noize : user.noize.ordinal ≤ p.noize.ordinal ∨ p.noize = .firewall ∧ (p.protocol = .masque ∨ CarriedMode p)
  endpoint : user.endpointMode ≠ .auto → ¬ CarriedMode p →
    p.endpointMode = user.endpointMode ∧ p.manualPeer = user.manualPeer ∧ p.manualRange = user.manualRange

theorem Planned.keeps {user : ConnectionProfile} {fp : NetworkFingerprint} {ranges : Text}
    (h : Planned user fp r ranges p) : Keeps user p where
  fragment hu := by simp [h.built.fragment, hu]
  ech hu := by simp [h.built.ech, hu]
  masqueHttp2 hu := by simp [h.built.masqueHttp2, hu]
  ipVersion := by
    rw [h.built.ipVersion]
    split
    case isTrue => exact .inr rfl
    case isFalse => exact .inl rfl
  noize := by
    have hm := ordinal_le_merge user.noize r.noize fp.iranCellular (carriedOuter user r)
    rw [carriedOuter_iff h.built] at hm
    rw [h.built.noize]
    exact hm
  endpoint hu hc := by
    have he := h.endpoint
    rw [endpointOf, if_neg hc, if_pos hu] at he
    obtain ⟨hm, hr⟩ := Prod.ext_iff.mp he
    exact ⟨hm, h.built.manualPeer, hr⟩

theorem buildPlan_keeps (user : ConnectionProfile) (fp : NetworkFingerprint) (stickyRange : Option Text)
    (memo : Option Recipe) :
    buildPlan user fp stickyRange memo ≠ [] ∧
    ((buildPlan user fp stickyRange memo).map AutoCandidate.profile).Nodup ∧
    (∀ c ∈ buildPlan user fp stickyRange memo, Keeps user c.profile) ∧
    (user.endpointMode = .auto → ∃ c ∈ buildPlan user fp stickyRange memo, c.profile.endpointMode = .auto) := by
  refine ⟨?nonempty, ?distinct, ?keeps, ?auto⟩
  case nonempty =>
    unfold buildPlan
    rw [ne_eq, Distinct.distinctBy_eq_nil]
    simp
  case distinct => exact pairwise_map.mpr (Distinct.pairwise_distinctBy _)
  case keeps =>
    intro c hc
    obtain ⟨r, ranges, -, h⟩ := planned_of_mem hc
    exact h.keeps
  case auto =>
    intro hu
    have hf : fallback user fp stickyRange ∈ memo.toList.map (memoRung user fp) ++ ladder user fp stickyRange ++
        [fallback user fp stickyRange] := mem_append_right _ mem_cons_self
    obtain ⟨c, hc, he⟩ : ∃ c ∈ buildPlan user fp stickyRange memo, c.profile = (fallback user fp stickyRange).profile :=
      Distinct.exists_key_distinctBy hf
    refine ⟨c, hc, ?_⟩
    have hk : keepUserEndpoint user = false := by simp [keepUserEndpoint, hu]
    rw [he]
    simp [fallback, hk]

structure SameStrategy (p w : ConnectionProfile) : Prop where
  protocol : p.protocol = w.protocol
  noize : p.noize = w.noize
  masqueHttp2 : p.masqueHttp2 = w.masqueHttp2
  fragment : p.fragment = w.fragment
  ech : p.ech = w.ech
  ipVersion : p.ipVersion = w.ipVersion
  endpoint : p.endpointMode = w.endpointMode ∧ p.manualRange = w.manualRange

section Replay

variable {user p w : ConnectionProfile} {fp : NetworkFingerprint} {r : Rung} {ranges : Text}

def replayRung (w : ConnectionProfile) : Rung where
  proto := w.protocol
  noize := w.noize
  h2 := w.masqueHttp2
  frag := w.fragment
  ech := w.ech
  forceHunt := w.protocol = .soild

theorem carriedMode_replay (hw : Planned user fp r ranges w) (hp : Built user fp (replayRung w) p) :
    CarriedMode p ↔ CarriedMode w := by
  rw [carriedMode_iff hp, carriedMode_iff hw.built]
  by_cases hs : r.proto = .soild
  case pos => simp [replayRung, hw.built.protocol, hs, hw.forceHunt hs]
  case neg => simp [replayRung, hw.built.protocol, hs]

theorem sameStrategy_replay_iff (hw : Planned user fp r ranges w) (hp : Built user fp (replayRung w) p) :
    SameStrategy p w ↔ user.ipVersion = w.ipVersion ∧ endpoint p = endpoint w := by
  have hv : p.ipVersion = user.ipVersion := hp.ipVersion
  constructor
  case mp => exact fun h => ⟨hv.symm.trans h.ipVersion, Prod.ext h.endpoint.1 h.endpoint.2⟩
  case mpr =>
    rintro ⟨hi, he⟩
    refine ⟨hp.protocol, ?_, ?_, ?_, ?_, hv.trans hi, Prod.ext_iff.mp he⟩
    · have ho : carriedOuter user (replayRung w) = carriedOuter user r := by
        rw [Bool.eq_iff_iff, carriedOuter_iff hp, carriedOuter_iff hw.built, carriedMode_replay hw hp, hp.protocol]
        rfl
      rw [hp.noize, mergedNoize_eq, ho]
      change merge user.noize w.noize fp.iranCellular (carriedOuter user r) = w.noize
      rw [hw.built.noize, mergedNoize_eq, merge_merge]
    · rw [hp.masqueHttp2]
      change (user.masqueHttp2 || (w.masqueHttp2 && decide (w.protocol = .masque))) = w.masqueHttp2
      rw [hw.built.masqueHttp2, hw.built.protocol]
      cases user.masqueHttp2 <;> cases r.h2 <;> simp
    · rw [hp.fragment]
      change (user.fragment || w.fragment) = w.fragment
      rw [hw.built.fragment]
      simp
    · rw [hp.ech]
      change (user.ech || w.ech) = w.ech
      rw [hw.built.ech]
      simp

theorem Planned.auto (h : Planned user fp r ranges w) (hu : user.endpointMode = .auto) :
    CarriedMode w ∧ w.endpointMode = .auto ∧ w.manualRange = [] ∨
    ¬ CarriedMode w ∧ ranges = [] ∧ w.endpointMode = .auto ∧ w.manualRange = user.manualRange ∨
    ¬ CarriedMode w ∧ ranges ≠ [] ∧ w.endpointMode = .manualRange ∧ w.manualRange = ranges := by
  have he := h.endpoint
  unfold endpointOf at he
  rw [if_neg (not_not.mpr hu)] at he
  by_cases hc : CarriedMode w
  case pos =>
    rw [if_pos hc] at he
    exact .inl ⟨hc, Prod.ext_iff.mp he⟩
  case neg =>
    rw [if_neg hc] at he
    by_cases hr : ranges = []
    case pos =>
      rw [if_pos hr] at he
      exact .inr (.inl ⟨hc, hr, Prod.ext_iff.mp he⟩)
    case neg =>
      rw [if_neg hr] at he
      exact .inr (.inr ⟨hc, hr, Prod.ext_iff.mp he⟩)

theorem endpointOf_trim_iff (hu : user.endpointMode = .auto) (hw : Planned user fp r ranges w)
    (hc : CarriedMode p ↔ CarriedMode w) (now : Int) :
    endpointOf user (recipeOf w now).range.trim p = endpoint w ↔
      (w.endpointMode = .manualRange → w.manualRange.trim = w.manualRange) := by
  unfold endpointOf endpoint recipeOf
  obtain ⟨h, hm, hr⟩ | ⟨h, -, hm, hr⟩ | ⟨h, hn, hm, hr⟩ := hw.auto hu
  case inl => simp [hc, h, hm, hr]
  case inr.inl => simp [hc, h, hm, hr, hu, Text.trim, Delimited.trim]
  case inr.inr =>
    by_cases ht : ranges.trim = []
    case pos => simp [hc, h, hm, hr, hu, ht, Ne.symm hn]
    case neg => simp [hc, h, hm, hr, hu, ht]

end Replay

theorem replay_iff (user : ConnectionProfile) (fp : NetworkFingerprint) (stickyRange stickyRange' : Option Text)
    (memo : Option Recipe) (w : AutoCandidate) (now : Int) (hu : user.endpointMode = .auto)
    (hw : w ∈ buildPlan user fp stickyRange memo) :
    (∃ first, (buildPlan user fp stickyRange' (some (recipeOf w.profile now))).head? = some first ∧
      SameStrategy first.profile w.profile) ↔
    user.ipVersion = w.profile.ipVersion ∧
      (w.profile.endpointMode = .manualRange → w.profile.manualRange.trim = w.profile.manualRange) := by
  obtain ⟨r, ranges, -, hw⟩ := planned_of_mem hw
  have hp : Built user fp (replayRung w.profile) (memoRung user fp (recipeOf w.profile now)).profile :=
    candidateProfile_built _
  have he : endpoint (memoRung user fp (recipeOf w.profile now)).profile =
      endpointOf user (recipeOf w.profile now).range.trim (memoRung user fp (recipeOf w.profile now)).profile :=
    endpoint_candidateProfile
  have hf : (buildPlan user fp stickyRange' (some (recipeOf w.profile now))).head? =
      some (memoRung user fp (recipeOf w.profile now)) := Distinct.head?_distinctBy _ _
  rw [hf]
  simp only [Option.some.injEq, exists_eq_left']
  rw [sameStrategy_replay_iff hw hp, he, endpointOf_trim_iff hu hw (carriedMode_replay hw hp)]

def openNetwork : NetworkFingerprint where
  dpiClass := .open
  operatorName := []
  iranCellular := false
  edgeLatencyMs := []
  v6EdgeOk := true

-- GOOL is replayed as it was.
theorem replay_gool :
    let w := rung {} openNetwork none { proto := .gool, noize := .light }
    ({} : ConnectionProfile).endpointMode = .auto ∧ w ∈ buildPlan {} openNetwork none none ∧
    ∃ first, (buildPlan {} openNetwork none (some (recipeOf w.profile 0))).head? = some first ∧
      SameStrategy first.profile w.profile := by
  intro w
  have hw : w ∈ buildPlan {} openNetwork none none := by decide +kernel
  have he : w.profile.ipVersion = .v4 ∧ w.profile.endpointMode = .auto := by decide +kernel
  refine ⟨rfl, hw, (replay_iff {} openNetwork none none none w 0 rfl hw).mpr ⟨he.1.symm, ?_⟩⟩
  rw [he.2]
  exact nofun

-- The first step of the ladder has both families, and its replay has one.
theorem not_replay_wireguard :
    let w := rung {} openNetwork none (firstRung .open)
    w ∈ buildPlan {} openNetwork none none ∧ w.profile.ipVersion = .both ∧
    ((buildPlan {} openNetwork none (some (recipeOf w.profile 0))).head?.map fun c => c.profile.ipVersion) = some .v4 := by
  intro w
  decide +kernel

end App.SmartAuto
