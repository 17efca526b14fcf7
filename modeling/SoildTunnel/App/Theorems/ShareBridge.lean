import SoildTunnel.App.ShareBridge

-- Whether a share that was asked for this device only is for this device only, and whether the flag tells if one is up.
namespace App.ShareBridge

open Lts Option List

variable {s s' : ShareBridge} {l : ShareLabel}

-- When a `startSync` for this device returns true, both listeners are bound to the loopback address.
def LocalOnly (s : ShareBridge) : Prop :=
  s.started = some true → s.socksServer = some .loopback ∧ s.httpServer = some .loopback

instance : DecidablePred LocalOnly :=
  fun s => inferInstanceAs (Decidable (s.started = some true → _ ∧ _))

def hostFor (localOnly : Bool) : BindHost :=
  if localOnly then .loopback else .allInterfaces

-- Both listeners are there on the same address, or none is. A call that is going to return true has
-- them on the address that it was asked for.
structure Inv (s : ShareBridge) : Prop where
  same : s.socksServer = s.httpServer
  bind : ∀ localOnly, s.starting = some (.bind localOnly) → s.bindHost = hostFor localOnly
  announce : ∀ localOnly, s.starting = some (.announce localOnly) → s.socksServer = some (hostFor localOnly)

-- Nobody asks for this device only while a share for all interfaces is up.
def Unshared (s : ShareBridge) : ShareLabel → Prop
  | .startSync true => s.isUp → s.socksServer ≠ some .allInterfaces
  | _ => True

theorem inv_startSync (hi : s.Inv) (localOnly : Bool) : (s.startSync localOnly).Inv := by
  unfold startSync
  split
  case isTrue => exact ⟨hi.same, hi.bind, hi.announce⟩
  case isFalse => exact ⟨rfl, fun _ h => by cases h; rfl, nofun⟩

theorem inv_bind (hi : s.Inv) {localOnly : Bool} (hb : s.starting = some (.bind localOnly)) (socks http : List Bool) :
    (s.bind localOnly socks http).Inv := by
  unfold bind
  dsimp only
  split
  case isTrue => exact ⟨rfl, nofun, nofun⟩
  case isFalse h =>
    simp only [Bool.or_eq_true, Option.isNone_iff_eq_none, not_or] at h
    have hs : ∀ attempts, s.bindWithRetry attempts ≠ none → s.bindWithRetry attempts = some (hostFor localOnly) := by
      intro attempts hn
      unfold bindWithRetry at hn ⊢
      split at hn
      case isTrue ha => rw [if_pos ha, hi.bind _ hb]
      case isFalse => exact absurd rfl hn
    refine ⟨(hs socks h.1).trans (hs http h.2).symm, nofun, fun _ ha => ?_⟩
    cases ha
    exact hs socks h.1

theorem inv_step (hi : s.Inv) (h : s.step l = some s') : s'.Inv := by
  cases l
  case startSync localOnly =>
    obtain ⟨-, h⟩ := ite_none_left_eq_some.mp h
    cases h
    exact inv_startSync hi localOnly
  case bind socks http =>
    simp only [step] at h
    split at h
    case h_1 hb => cases h; exact inv_bind hi hb socks http
    case h_2 => cases h
  case announce =>
    simp only [step] at h
    split at h
    case h_1 => cases h; exact ⟨hi.same, nofun, nofun⟩
    case h_2 => cases h
  case stop => cases h; exact ⟨hi.same, hi.bind, hi.announce⟩
  case stopSession =>
    obtain ⟨-, h⟩ := ite_none_left_eq_some.mp h
    cases h
    exact ⟨hi.same, hi.bind, hi.announce⟩
  case stopClose k =>
    obtain ⟨hn, h⟩ := ite_none_left_eq_some.mp h
    obtain ⟨session, -, rfl⟩ := map_eq_some_iff.mp h
    have hs : s.starting = none := by simpa using hn
    split
    case isTrue => exact ⟨rfl, by simp [closeServers, hs], by simp [closeServers, hs]⟩
    case isFalse => exact ⟨hi.same, hi.bind, hi.announce⟩

theorem localOnly_of_started (h : s.started = none) : s.LocalOnly :=
  fun hs => nomatch h.symm.trans hs

theorem localOnly_startSync_iff (hi : s.Inv) (localOnly : Bool) :
    (s.startSync localOnly).LocalOnly ↔ s.Unshared (.startSync localOnly) := by
  cases localOnly
  case false =>
    refine iff_of_true ?_ trivial
    unfold startSync
    split
    case isTrue => nofun
    case isFalse => exact localOnly_of_started rfl
  case true =>
    by_cases hu : s.isUp
    case neg => simp [startSync, hu, Unshared, LocalOnly]
    case pos =>
      have hsome : s.socksServer ≠ none := by
        simp only [isUp, Bool.and_eq_true, Bool.or_eq_true] at hu
        intro hn
        simp [← hi.same, hn] at hu
      simp only [startSync, hu, if_true, LocalOnly, Unshared, ← hi.same, and_self, forall_const]
      cases hh : s.socksServer
      case none => exact absurd hh hsome
      case some host => cases host <;> simp

theorem localOnly_step_iff (hi : s.Inv) (h : s.step l = some s') : s'.LocalOnly ↔ s.Unshared l := by
  cases l
  case startSync localOnly =>
    obtain ⟨-, h⟩ := ite_none_left_eq_some.mp h
    cases h
    exact localOnly_startSync_iff hi localOnly
  case bind socks http =>
    refine iff_of_true (localOnly_of_started ?_) trivial
    simp only [step] at h
    split at h
    case h_1 =>
      cases h
      unfold bind
      dsimp only
      split <;> rfl
    case h_2 => cases h
  case announce =>
    refine iff_of_true ?_ trivial
    simp only [step] at h
    split at h
    case h_1 ha =>
      cases h
      intro hs
      cases hs
      have := hi.announce _ ha
      exact ⟨this, hi.same ▸ this⟩
    case h_2 => cases h
  case stop => cases h; exact iff_of_true (localOnly_of_started rfl) trivial
  case stopSession =>
    obtain ⟨-, h⟩ := ite_none_left_eq_some.mp h
    cases h
    exact iff_of_true (localOnly_of_started rfl) trivial
  case stopClose k =>
    obtain ⟨-, h⟩ := ite_none_left_eq_some.mp h
    obtain ⟨_, -, rfl⟩ := map_eq_some_iff.mp h
    exact iff_of_true (localOnly_of_started rfl) trivial

theorem always_localOnly_iff (run : List ShareLabel) : Always step LocalOnly {} run ↔ Admits step Unshared {} run :=
  always_iff_admits (fun _ _ _ hi _ h _ => inv_step hi h) (fun _ _ _ hi _ h => localOnly_step_iff hi h)
    ⟨rfl, nofun, nofun⟩ nofun

-- The share panel opens the share to the network, and then a proxy for this device is started.
theorem not_always_localOnly :
    ¬ Always step LocalOnly {} [.startSync false, .bind [true] [true], .announce, .startSync true] :=
  not_always (by decide +kernel)

-- Once every call and every thread is through, the flag says whether both listeners are there.
def Settled (s : ShareBridge) : Prop :=
  s.starting = none → s.stopping = 0 → s.stops = [] → (s.active ↔ s.socksServer.isSome ∧ s.httpServer.isSome)

instance : DecidablePred Settled :=
  fun s => inferInstanceAs (Decidable (s.starting = none → s.stopping = 0 → s.stops = [] → _))

-- No share has come up between the first statement of a `stop` and its turn at the lock.
def Unraced (s : ShareBridge) : ShareLabel → Prop
  | .stopSession => s.active = false
  | _ => True

instance (s : ShareBridge) : (l : ShareLabel) → Decidable (s.Unraced l)
  | .stopSession => inferInstanceAs (Decidable (s.active = false))
  | .startSync _ | .bind .. | .announce | .stop | .stopClose _ => isTrue trivial

-- The stop that is last at the lock is the one that closes the listeners, and only while the flag is down.
structure Due (s : ShareBridge) : Prop where
  inv : s.Inv
  idle : s.session ∈ s.stops → s.active = false ∧ s.starting = none
  up : s.active → s.socksServer.isSome
  down : s.socksServer.isSome → s.active ∨ s.stopping ≠ 0 ∨ s.session ∈ s.stops ∨
    ∃ localOnly, s.starting = some (.announce localOnly)
  le : ∀ n ∈ s.stops, n ≤ s.session

theorem Due.not_mem (hd : s.Due) {n : Starting} (hs : s.starting = some n) : s.session ∉ s.stops := by
  intro hm
  simp [(hd.idle hm).2] at hs

theorem Due.succ_not_mem (hd : s.Due) : s.session + 1 ∉ s.stops := by
  intro hm
  have := hd.le _ hm
  omega

theorem due_startSync (hd : s.Due) (localOnly : Bool) : (s.startSync localOnly).Due := by
  have hi := inv_startSync hd.inv localOnly
  unfold startSync at hi ⊢
  split
  case isTrue hu =>
    rw [if_pos hu] at hi
    exact ⟨hi, hd.idle, hd.up, hd.down, hd.le⟩
  case isFalse hu =>
    rw [if_neg hu] at hi
    have ha : s.active = false := by
      cases ha : s.active
      case false => rfl
      case true => simp [isUp, ha, hd.up ha] at hu
    exact ⟨hi, fun hm => absurd hm hd.succ_not_mem, fun h => by simp [closeServers, ha] at h, by simp [closeServers],
      fun n hn => (hd.le n hn).trans (Nat.le_succ _)⟩

theorem due_bind (hd : s.Due) {localOnly : Bool} (hb : s.starting = some (.bind localOnly)) (socks http : List Bool) :
    (s.bind localOnly socks http).Due := by
  have hi := inv_bind hd.inv hb socks http
  have hn := hd.not_mem hb
  unfold bind at hi ⊢
  dsimp only at hi ⊢
  split
  case isTrue h =>
    rw [if_pos h] at hi
    exact ⟨hi, fun hm => absurd hm hn, by simp, by simp [closeServers], hd.le⟩
  case isFalse h =>
    rw [if_neg h] at hi
    have hs : (s.bindWithRetry socks).isSome := by
      rw [Bool.or_eq_true, not_or] at h
      simpa [isSome_iff_ne_none] using h.1
    exact ⟨hi, fun hm => absurd hm hn, fun _ => hs, fun _ => .inr (.inr (.inr ⟨_, rfl⟩)), hd.le⟩

theorem due_stopClose (hd : s.Due) {k n : Nat} (hk : s.stops[k]? = some n) (hs : s.starting = none)
    (hi : { (if s.session = n then s.closeServers else s) with stops := s.stops.eraseIdx k, started := none }.Inv) :
    { (if s.session = n then s.closeServers else s) with stops := s.stops.eraseIdx k, started := none }.Due := by
  have hsub := eraseIdx_subset (l := s.stops) (k := k)
  by_cases he : s.session = n
  case pos =>
    simp only [if_pos he] at hi ⊢
    have ⟨ha, _⟩ := hd.idle (he ▸ mem_of_getElem? hk)
    exact ⟨hi, fun _ => ⟨ha, hs⟩, fun h => by simp [closeServers, ha] at h, by simp [closeServers], fun n hn => hd.le n (hsub hn)⟩
  case neg =>
    simp only [if_neg he] at hi ⊢
    refine ⟨hi, fun hm => hd.idle (hsub hm), hd.up, fun hp => ?_, fun n hn => hd.le n (hsub hn)⟩
    refine (hd.down hp).imp_right (.imp_right (.imp_left fun hm => ?_))
    obtain ⟨i, hm⟩ := mem_iff_getElem?.mp hm
    refine mem_eraseIdx_iff_getElem?.mpr ⟨i, ?_, hm⟩
    rintro rfl
    exact he (Option.some.inj (hm.symm.trans hk))

theorem due_step (hd : s.Due) (hl : s.Unraced l) (h : s.step l = some s') : s'.Due := by
  have hi := inv_step hd.inv h
  cases l
  case startSync localOnly =>
    obtain ⟨-, h⟩ := ite_none_left_eq_some.mp h
    cases h
    exact due_startSync hd localOnly
  case bind socks http =>
    simp only [step] at h
    split at h
    case h_1 hb => cases h; exact due_bind hd hb socks http
    case h_2 => cases h
  case announce =>
    simp only [step] at h
    split at h
    case h_1 ha =>
      cases h
      exact ⟨hi, fun hm => absurd hm (hd.not_mem ha), fun _ => by simp [hd.inv.announce _ ha], fun _ => .inl rfl, hd.le⟩
    case h_2 => cases h
  case stop =>
    cases h
    exact ⟨hi, fun hm => ⟨rfl, (hd.idle hm).2⟩, by simp, fun _ => .inr (.inl (Nat.succ_ne_zero _)), hd.le⟩
  case stopSession =>
    obtain ⟨hn, h⟩ := ite_none_left_eq_some.mp h
    cases h
    have hs : s.starting = none := by simpa using (not_or.mp hn).1
    have ha : s.active = false := hl
    refine ⟨hi, fun _ => ⟨ha, hs⟩, fun h => by simp [ha] at h, fun _ => .inr (.inr (.inl (by simp))), fun n hn => ?_⟩
    obtain hn | hn := mem_append.mp hn
    case inl => exact (hd.le n hn).trans (Nat.le_succ _)
    case inr => exact (mem_singleton.mp hn).le
  case stopClose k =>
    obtain ⟨hn, h⟩ := ite_none_left_eq_some.mp h
    obtain ⟨n, hk, rfl⟩ := map_eq_some_iff.mp h
    exact due_stopClose hd hk (by simpa using hn) hi

theorem Due.settled (hd : s.Due) : s.Settled := by
  intro hs h0 hn
  rw [← hd.inv.same, and_self]
  refine ⟨hd.up, fun hp => ?_⟩
  obtain h | h | h | ⟨_, h⟩ := hd.down hp
  case inl => exact h
  case inr.inl => exact absurd h0 h
  case inr.inr.inl => simp [hn] at h
  case inr.inr.inr => simp [hs] at h

theorem always_settled (run : List ShareLabel) (h : Admits step Unraced {} run) : Always step Settled {} run :=
  always_of_admits (fun _ _ _ hd hl h => due_step hd hl h) (fun _ hd => hd.settled)
    ⟨⟨rfl, nofun, nofun⟩, nofun, nofun, nofun, nofun⟩ h

def restarted : List ShareLabel :=
  [.startSync false, .bind [true] [true], .announce, .stop, .stopSession, .startSync false, .bind [true] [true],
    .announce, .stopClose 0]

theorem always_settled_restarted : Always step Settled {} restarted ∧ (exec step {} restarted).any (·.active) :=
  ⟨always_settled restarted (by decide +kernel), by decide +kernel⟩

-- A share that is being started comes up after the flag was taken down, and is closed.
theorem not_always_settled :
    ¬ Always step Settled {} [.startSync false, .stop, .bind [true] [true], .announce, .stopSession, .stopClose 0] :=
  not_always (by decide +kernel)

theorem up_step (hi : s.Inv) (h : s.step l = some s') : s'.started.isSome → s'.socksServer.isSome := by
  cases l
  case startSync localOnly =>
    obtain ⟨-, h⟩ := ite_none_left_eq_some.mp h
    cases h
    unfold startSync
    split
    case isTrue hu =>
      simp only [isUp, hi.same, Bool.or_self, Bool.and_eq_true] at hu ⊢
      exact fun _ => hu.2
    case isFalse => nofun
  case bind socks http =>
    simp only [step] at h
    split at h <;> cases h
    unfold bind
    dsimp only
    split <;> nofun
  case announce =>
    simp only [step] at h
    split at h <;> cases h
    case h_1 localOnly ha => simp [hi.announce _ ha]
  case stop => cases h; nofun
  case stopSession =>
    obtain ⟨-, h⟩ := ite_none_left_eq_some.mp h
    cases h
    nofun
  case stopClose k =>
    obtain ⟨-, h⟩ := ite_none_left_eq_some.mp h
    obtain ⟨_, -, rfl⟩ := map_eq_some_iff.mp h
    nofun

-- A share is never half open, and a start that reports success has one.
theorem always_paired (run : List ShareLabel) :
    Always step (fun s => s.socksServer = s.httpServer ∧ (s.started.isSome → s.socksServer.isSome)) {} run := by
  refine always_iff.mpr fun past _ s _ hx => ?_
  have h₀ : Inv {} ∧ ((none : Option Bool).isSome → (none : Option BindHost).isSome) := ⟨⟨rfl, nofun, nofun⟩, nofun⟩
  have h := exec_invariant (I := fun s => Inv s ∧ (s.started.isSome → s.socksServer.isSome))
    (fun _ _ _ hi hs => ⟨inv_step hi.1 hs, up_step hi.1 hs⟩) h₀ hx
  exact ⟨h.1.same, h.2⟩

end App.ShareBridge
