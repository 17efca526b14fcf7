import SoildTunnel.Engine.Reconnect
import SoildTunnel.Lib.Lts

-- Where the loops go next, and how they scan.
namespace Engine.Reconnect

open Rust Scan List Option

namespace Masque.State

-- A gateway that has just been left is not the next one.
def Moves (s : State) : Prop :=
  ∀ p ∈ s.abandoned, s.phase ≠ .tunnel p

instance : DecidablePred Moves :=
  fun s => inferInstanceAs (Decidable (∀ p ∈ s.abandoned, s.phase ≠ .tunnel p))

-- The first gateway of a scan is another one than the one that was left.
def Elsewhere (s : State) : Event → Prop
  | .found (some p) => p ∈ s.avoid ∨ s.abandoned ≠ some p
  | .ranked (some peers) => ∀ p ∈ (peers.filter (· ∉ s.avoid)).head?, s.abandoned ≠ some p
  | _ => True

variable {s s' : State} {e : Event} {p : SocketAddr}

structure Walking (s : State) : Prop where
  unforced : s.forced = none
  outer : s.inner = false → s.ranked = []
  nodup : s.ranked.Nodup

-- The gateway that was left is not among those that are still to come.
def Left (s : State) : Prop :=
  ∀ q, s.abandoned = some q → q ∉ s.ranked

inductive Inv (s : State) : Prop
  | fresh (hp : s.phase = .top) (hl : s.lastGood = none) (hr : s.ranked = []) (ha : s.abandoned = none) (hw : s.Walking)
  | idle (hp : s.phase = .top ∨ s.phase = .scanning ∨ ∃ p, s.phase = .retrying p ∧ s.lastGood = some p) (hq : s.quick = none)
      (hg : ∀ p, s.lastGood = some p → p ∉ s.ranked ∧ s.abandoned = none) (hl : s.Left) (hw : s.Walking)
  | tunnel (p : SocketAddr) (hp : s.phase = .tunnel p) (hq : s.quick = none) (hg : s.lastGood = some p) (hr : p ∉ s.ranked)
      (hw : s.Walking)

theorem Walking.use (hw : s.Walking) (hq : s.quick = none) (hr : p ∉ s.ranked) (hl : p ∈ s.avoid → s.Left) :
    (s.use p).Inv ∧ ((s.use p).Moves ↔ p ∈ s.avoid ∨ s.abandoned ≠ some p) := by
  by_cases ha : p ∈ s.avoid
  case pos =>
    have hu : s.use p = { s with lastGood := none, phase := .top } := if_pos ⟨hw.unforced, ha⟩
    rw [hu]
    exact ⟨.idle (.inl rfl) hq nofun (hl ha) ⟨hw.unforced, hw.outer, hw.nodup⟩, iff_of_true nofun (.inl ha)⟩
  case neg =>
    have hu : s.use p = { s with lastGood := some p, phase := .tunnel p } := if_neg fun h => ha h.2
    rw [hu]
    refine ⟨.tunnel p rfl hq rfl hr ⟨hw.unforced, hw.outer, hw.nodup⟩, ?_⟩
    rw [or_iff_right ha]
    constructor
    case mp => exact fun h he => h p he rfl
    case mpr =>
      intro h q hq hp
      cases hp
      exact h hq

theorem Walking.walk (hw : s.Walking) (hq : s.quick = none) (hg : ∀ p, s.lastGood = some p → s.abandoned = none)
    (hl : ∀ p ∈ s.ranked.head?, p ∈ s.avoid → s.Left) :
    s.walk.Inv ∧ (s.walk.Moves ↔ ∀ p ∈ s.ranked.head?, p ∈ s.avoid ∨ s.abandoned ≠ some p) := by
  unfold State.walk
  split
  case h_1 hr =>
    refine ⟨.idle (.inl rfl) hq (fun p hp => ⟨?_, hg p hp⟩) (fun q _ => ?_) ⟨hw.unforced, hw.outer, hw.nodup⟩, ?_⟩
    · simp [hr]
    · simp [hr]
    · exact iff_of_true nofun (by simp [hr])
  case h_2 q rest hr =>
    have hn := nodup_cons.mp (hr ▸ hw.nodup)
    have hrest : Walking { s with ranked := rest } := by
      refine ⟨hw.unforced, fun hi => ?_, hn.2⟩
      rw [hw.outer hi] at hr
      cases hr
    have hleft : q ∈ s.avoid → Left { s with ranked := rest } :=
      fun ha a he hm => hl q (by simp [hr]) ha a he (hr ▸ mem_cons_of_mem q hm)
    have hu := hrest.use hq hn.1 hleft
    refine ⟨hu.1, hu.2.trans ?_⟩
    simp [hr]

theorem Walking.search (hw : s.Walking) (hq : s.quick = none) (hl : s.Left)
    (hg : ∀ p, s.lastGood = some p → p ∉ s.ranked ∧ s.abandoned = none) : s.search.Inv ∧ s.search.Moves := by
  have hs : s.search = if s.inner ∧ s.ranked ≠ [] then s.walk else { s with phase := .scanning } := by
    simp [State.search, hw.unforced]
  rw [hs]
  split
  case isTrue =>
    have ⟨hi, hm⟩ := hw.walk hq (fun p hp => (hg p hp).2) fun _ _ _ => hl
    refine ⟨hi, hm.mpr fun p hp => .inr fun ha => ?_⟩
    exact hl p ha (mem_of_mem_head? hp)
  case isFalse => exact ⟨.idle (.inr (.inl rfl)) hq hg hl ⟨hw.unforced, hw.outer, hw.nodup⟩, nofun⟩

theorem Inv.next (h : s.Inv) (hp : s.phase = .top) : s.next.Inv ∧ s.next.Moves := by
  rcases h with ⟨-, hl, hr, ha, hw⟩ | ⟨-, hq, hg, hl, hw⟩ | ⟨p, hp', -⟩
  · have hleft : s.Left := fun q hq => by simp [ha] at hq
    unfold State.next
    split
    case h_1 p _ =>
      have hw' : Walking { s with quick := none } := ⟨hw.unforced, hw.outer, hw.nodup⟩
      have ⟨hi, hm⟩ := hw'.use rfl (p := p) (by simp [hr]) fun _ => hleft
      exact ⟨hi, hm.mpr (.inr (by simp [ha]))⟩
    case h_2 hq =>
      rw [hl]
      exact hw.search hq hleft (by simp [hl])
  · unfold State.next
    split
    case h_1 p hs => cases hq.symm.trans hs
    case h_2 =>
      split
      case h_1 p hs => exact ⟨.idle (.inr (.inr ⟨p, rfl, hs⟩)) hq hg hl ⟨hw.unforced, hw.outer, hw.nodup⟩, nofun⟩
      case h_2 => exact hw.search hq hl hg
  · cases hp.symm.trans hp'

theorem Walking.ended (hw : s.Walking) (hq : s.quick = none) (hg : s.lastGood = some p) (hr : p ∉ s.ranked) (result : Ended) :
    (s.ended p result).Inv ∧ (s.ended p result).Moves := by
  have hgood : ∀ q, s.lastGood = some q → q ∉ s.ranked := fun q h => some_inj.mp (hg.symm.trans h) ▸ hr
  cases result
  case closed => exact ⟨.idle (.inl rfl) hq (fun _ _ => ⟨not_mem_nil, rfl⟩) nofun ⟨hw.unforced, fun _ => rfl, .nil⟩, nofun⟩
  case migrate =>
    refine ⟨.idle (.inl rfl) hq nofun (fun q h => ?_) ⟨hw.unforced, hw.outer, hw.nodup⟩, nofun⟩
    exact some_inj.mp h ▸ hr
  case iranianEgress =>
    have hphase : (s.ended p .iranianEgress).phase = .top := by simp [State.ended, hw.unforced]
    refine ⟨.idle (.inl hphase) hq nofun nofun ⟨hw.unforced, hw.outer, hw.nodup⟩, nofun⟩
  case failed =>
    simp only [State.ended]
    split
    case isTrue => exact ⟨.idle (.inl rfl) hq nofun nofun ⟨hw.unforced, hw.outer, hw.nodup⟩, nofun⟩
    case isFalse =>
      exact ⟨.idle (.inl rfl) hq (fun q h => ⟨hgood q h, rfl⟩) nofun ⟨hw.unforced, hw.outer, hw.nodup⟩, nofun⟩

theorem Inv.waiting (h : s.Inv) (hn : s.phase ≠ .top) (hn' : ∀ p, s.phase ≠ .tunnel p) :
    s.Walking ∧ s.quick = none ∧ s.Left ∧ (∀ p, s.lastGood = some p → p ∉ s.ranked ∧ s.abandoned = none) ∧
      ∀ p, s.phase = .retrying p → s.lastGood = some p := by
  rcases h with ⟨hp, -⟩ | ⟨hp, hq, hg, hl, hw⟩ | ⟨p, hp, -⟩
  · exact absurd hp hn
  · refine ⟨hw, hq, hl, hg, fun p hr => ?_⟩
    rcases hp with hp | hp | ⟨q, hp, hl⟩
    · exact absurd hp hn
    · cases hr.symm.trans hp
    · cases hr.symm.trans hp
      assumption
  · exact absurd hp (hn' p)

theorem Inv.step (h : s.Inv) (hs : s.step e = some s') : s'.Inv ∧ (s'.Moves ↔ s.Elsewhere e) := by
  unfold State.step at hs
  split at hs
  case h_1 hp =>
    cases hs
    exact (h.next hp).imp_right fun hm => iff_of_true hm trivial
  case h_2 p ok hp =>
    cases hs
    obtain ⟨hw, hq, hl, hg, hgood⟩ := h.waiting (by simp [hp]) (by simp [hp])
    split
    case isTrue =>
      have ⟨hr, ha⟩ := hg p (hgood p hp)
      have hu := hw.use hq hr fun _ => hl
      exact ⟨hu.1, iff_of_true (hu.2.mpr (.inr (by simp [ha]))) trivial⟩
    case isFalse => exact (hw.search hq hl hg).imp_right fun hm => iff_of_true hm trivial
  case h_3 hp =>
    obtain ⟨hw, hq, hl, hg, -⟩ := h.waiting (by simp [hp]) (by simp [hp])
    obtain ⟨-, hs⟩ := ite_none_left_eq_some.mp hs
    cases hs
    exact ⟨.idle (.inl rfl) hq hg hl ⟨hw.unforced, hw.outer, hw.nodup⟩, iff_of_true nofun trivial⟩
  case h_4 p hp =>
    obtain ⟨hw, hq, hl, hg, -⟩ := h.waiting (by simp [hp]) (by simp [hp])
    obtain ⟨hi, hs⟩ := ite_none_left_eq_some.mp hs
    cases hs
    exact hw.use hq (by simp [hw.outer (Bool.eq_false_iff.mpr hi)]) fun _ => hl
  case h_5 hp =>
    obtain ⟨hw, hq, hl, hg, -⟩ := h.waiting (by simp [hp]) (by simp [hp])
    obtain ⟨-, hs⟩ := ite_none_right_eq_some.mp hs
    cases hs
    exact ⟨.idle (.inl rfl) hq hg hl ⟨hw.unforced, hw.outer, hw.nodup⟩, iff_of_true nofun trivial⟩
  case h_6 peers hp =>
    obtain ⟨hw, hq, hl, hg, -⟩ := h.waiting (by simp [hp]) (by simp [hp])
    obtain ⟨⟨hi, hn⟩, hs⟩ := ite_none_right_eq_some.mp hs
    cases hs
    have hkept : ∀ p ∈ (peers.filter (· ∉ s.avoid)).head?, p ∉ s.avoid :=
      fun p hm => of_decide_eq_true (mem_filter.mp (mem_of_mem_head? hm)).2
    have hw' : Walking { s with ranked := peers.filter (· ∉ s.avoid) } :=
      ⟨hw.unforced, fun hn => absurd (hi.symm.trans hn) (by decide), hn.filter _⟩
    have hwalk := hw'.walk hq (fun p hp => (hg p hp).2) fun p hm ha => absurd ha (hkept p hm)
    exact ⟨hwalk.1, hwalk.2.trans (forall₂_congr fun p hm => or_iff_right (hkept p hm))⟩
  case h_7 p result hp =>
    cases hs
    rcases h with ⟨hp', -⟩ | ⟨hp', -⟩ | ⟨q, hp', hq, hg, hr, hw⟩
    · cases hp.symm.trans hp'
    · simp [hp] at hp'
    · cases hp.symm.trans hp'
      exact (hw.ended hq hg hr result).imp_right fun hm => iff_of_true hm trivial
  case h_8 => cases hs

theorem always_moves_iff (cm : CaseMap) (su : Setup) (verifies : SocketAddr → Bool) (inner : Bool) (avoid : List SocketAddr)
    (events : List Event) :
    Lts.Always step Moves (start cm su none verifies inner avoid) events ↔
      Lts.Admits step Elsewhere (start cm su none verifies inner avoid) events := by
  have hi : (start cm su none verifies inner avoid).Inv := .fresh rfl rfl rfl rfl ⟨rfl, fun _ => rfl, .nil⟩
  exact Lts.always_iff_admits (fun _ _ _ hi _ hs _ => (hi.step hs).1) (fun _ _ _ hi _ hs => (hi.step hs).2) hi nofun

end Masque.State

def silent : Setup where
  scanVar := none
  scanAnswer := none
  ipVar := none
  ipAnswer := none
  reconnectVar := none
  reconnectAnswer := none
  noizeVar := none
  profileRetry := true
  assigned := none
  cached := none

def gateway : SocketAddr :=
  ⟨.v4 (.new 162 159 198 2), 443⟩

-- The scan after the change finds the same gateway again, which is still the best one.
theorem Masque.State.not_always_moves : ¬ Lts.Always step Moves (start .ascii silent none (fun _ => true) false [])
      [.next, .found (some gateway), .ended .migrate, .next, .found (some gateway)] :=
  Lts.not_always (by decide +kernel)

section ScanWith

-- Two texts can stand for the same mode.
def ScanWith.Same (cm : CaseMap) (a b : ScanWith) : Prop :=
  ScanMode.parse cm a.mode = ScanMode.parse cm b.mode ∧ a.ip = b.ip

instance (cm : CaseMap) (a b : ScanWith) : Decidable (a.Same cm b) :=
  inferInstanceAs (Decidable (_ ∧ _))

variable {cm : CaseMap} {su : Setup}

theorem parse_nil (cm : CaseMap) : ScanMode.parse cm [] = .balanced := by
  have h : cm.toLowercase (Text.trim []) = [] := cm.toLowercase_ascii nofun
  rw [ScanMode.parse, h]
  decide

-- What is taken when nobody has been asked.
def ScanWith.IsDefault (cm : CaseMap) (a : ScanWith) : Prop :=
  ScanMode.parse cm a.mode = .balanced ∧ a.ip = .v4

theorem same_scanWith_iff {α : Type*} {known : Option α} :
    (su.scanWith cm known.isSome).Same cm (su.configured cm) ↔ known = none ∨ (su.configured cm).IsDefault cm := by
  cases known
  case none => simp [Setup.scanWith, ScanWith.Same]
  case some => simp [Setup.scanWith, ScanWith.Same, ScanWith.IsDefault, parse_nil, eq_comm]

end ScanWith

namespace WireGuard.State

def ScansWith (cm : CaseMap) (want : ScanWith) (s : State) : Prop :=
  s.phase = .scanning → s.scan.Same cm want

variable {s s' : State}

theorem scan_tidy (s : State) : s.tidy.scan = s.scan := by
  simp only [State.tidy]
  split
  case isTrue => split <;> rfl
  case isFalse => rfl

theorem scan_search (s : State) : s.search.scan = s.scan := by
  unfold State.search
  split <;> rfl

theorem scan_next (s : State) : s.next.scan = s.scan := by
  unfold State.next
  split
  case h_1 => rfl
  case h_2 =>
    split
    case h_1 => rfl
    case h_2 => exact scan_search s

theorem scan_ended (s : State) (c : Candidate) (result : Ended) : (s.ended c result).scan = s.scan := by
  simp only [State.ended]
  split <;> rfl

theorem scan_step {l : Nat × Event} (hs : s.step l = some s') : s'.scan = s.scan := by
  obtain ⟨-, hs⟩ := ite_none_right_eq_some.mp hs
  unfold State.act at hs
  split at hs
  case h_1 => cases hs; exact (scan_next _).trans (scan_tidy _)
  case h_2 =>
    cases hs
    split
    case isTrue => rfl
    case isFalse => exact scan_search _
  case h_3 => cases hs; rfl
  case h_4 => cases hs; rfl
  case h_5 =>
    obtain ⟨-, hs⟩ := ite_none_left_eq_some.mp hs
    cases hs
    rfl
  case h_6 => cases hs; rfl
  case h_7 => cases hs; exact scan_ended _ _ _
  case h_8 => cases hs

theorem exists_scanning {c : Candidate} (cm : CaseMap) {su : Setup} {verifies : SocketAddr → Text → Bool} (cooldown : Nat)
    (h : quickCandidate su none verifies = some c) :
    ∃ events s, Lts.exec step (start cm su none verifies cooldown) events = some s ∧ s.phase = .scanning := by
  have hx : (Lts.exec step (start cm su none verifies cooldown) [(0, .next), (0, .ended .migrate), (0, .next)]).any
      (·.phase = .scanning) := by
    simp [State.step, State.act, start, h, State.tidy, MAX_CONSECUTIVE_FAILS, State.next, State.use, State.ended, State.park,
      State.search]
  obtain ⟨s, hx, hp⟩ := (Option.any_eq_true ..).mp hx
  exact ⟨_, s, hx, of_decide_eq_true hp⟩

theorem scansWith_iff (cm : CaseMap) (su : Setup) (verifies : SocketAddr → Text → Bool) (cooldown : Nat) :
    (∀ events, Lts.Always step (ScansWith cm (su.configured cm)) (start cm su none verifies cooldown) events) ↔
      quickCandidate su none verifies = none ∨ (su.configured cm).IsDefault cm := by
  refine (Lts.always_constant_iff (R := (·.Same cm _)) fun _ _ _ => scan_step).trans ?_
  refine (imp_congr_right fun _ => same_scanWith_iff).trans ?_
  constructor
  case mp =>
    intro h
    cases hq : quickCandidate su none verifies
    case none => exact .inl rfl
    case some c => exact hq ▸ h (exists_scanning cm cooldown hq)
  case mpr => exact fun h _ => h

end WireGuard.State

namespace Masque.State

def ScansWith (cm : CaseMap) (want : ScanWith) (s : State) : Prop :=
  s.phase = .scanning → s.scan.Same cm want

instance (cm : CaseMap) (want : ScanWith) : DecidablePred (ScansWith cm want) :=
  fun s => inferInstanceAs (Decidable (s.phase = .scanning → s.scan.Same cm want))

variable {s s' : State} {e : Event}

theorem scan_use (s : State) (p : SocketAddr) : (s.use p).scan = s.scan := by
  unfold State.use
  split <;> rfl

theorem scan_walk (s : State) : s.walk.scan = s.scan := by
  unfold State.walk
  split
  case h_1 => rfl
  case h_2 => exact scan_use _ _

theorem scan_search (s : State) : s.search.scan = s.scan := by
  unfold State.search
  split
  case h_1 => exact scan_use _ _
  case h_2 => rfl
  case h_3 =>
    split
    case isTrue => exact scan_walk s
    case isFalse => rfl

theorem scan_next (s : State) : s.next.scan = s.scan := by
  unfold State.next
  split
  case h_1 => exact scan_use _ _
  case h_2 =>
    split
    case h_1 => rfl
    case h_2 => exact scan_search s

theorem scan_ended (s : State) (p : SocketAddr) (result : Ended) : (s.ended p result).scan = s.scan := by
  cases result
  case failed =>
    simp only [State.ended]
    split <;> rfl
  all_goals rfl

theorem scan_step (hs : s.step e = some s') : s'.scan = s.scan := by
  unfold State.step at hs
  split at hs
  case h_1 => cases hs; exact scan_next s
  case h_2 =>
    cases hs
    split
    case isTrue => exact scan_use _ _
    case isFalse => exact scan_search s
  case h_3 => obtain ⟨-, hs⟩ := ite_none_left_eq_some.mp hs; cases hs; rfl
  case h_4 => obtain ⟨-, hs⟩ := ite_none_left_eq_some.mp hs; cases hs; exact scan_use _ _
  case h_5 => obtain ⟨-, hs⟩ := ite_none_right_eq_some.mp hs; cases hs; rfl
  case h_6 => obtain ⟨-, hs⟩ := ite_none_right_eq_some.mp hs; cases hs; exact scan_walk _
  case h_7 => cases hs; exact scan_ended _ _ _
  case h_8 => cases hs

theorem exists_scanning {p : SocketAddr} (cm : CaseMap) {su : Setup} {verifies : SocketAddr → Bool} (inner : Bool)
    (avoid : List SocketAddr) (h : quickPeer su none verifies = some p) :
    ∃ events s, Lts.exec step (start cm su none verifies inner avoid) events = some s ∧ s.phase = .scanning := by
  by_cases ha : p ∈ avoid
  case pos =>
    have hx : (Lts.exec step (start cm su none verifies inner avoid) [.next, .next]).any (·.phase = .scanning) := by
      simp [State.step, start, h, State.next, State.use, ha, State.search]
    obtain ⟨s, hx, hp⟩ := (Option.any_eq_true ..).mp hx
    exact ⟨_, s, hx, of_decide_eq_true hp⟩
  case neg =>
    have hx : (Lts.exec step (start cm su none verifies inner avoid) [.next, .ended .migrate, .next]).any
        (·.phase = .scanning) := by
      simp [State.step, start, h, State.next, State.use, ha, State.ended, State.search]
    obtain ⟨s, hx, hp⟩ := (Option.any_eq_true ..).mp hx
    exact ⟨_, s, hx, of_decide_eq_true hp⟩

theorem scansWith_iff (cm : CaseMap) (su : Setup) (verifies : SocketAddr → Bool) (inner : Bool) (avoid : List SocketAddr) :
    (∀ events, Lts.Always step (ScansWith cm (su.configured cm)) (start cm su none verifies inner avoid) events) ↔
      quickPeer su none verifies = none ∨ (su.configured cm).IsDefault cm := by
  refine (Lts.always_constant_iff (R := (·.Same cm _)) fun _ _ _ => scan_step).trans ?_
  refine (imp_congr_right fun _ => same_scanWith_iff).trans ?_
  constructor
  case mp =>
    intro h
    cases hq : quickPeer su none verifies
    case none => exact .inl rfl
    case some p => exact hq ▸ h (exists_scanning cm inner avoid hq)
  case mpr => exact fun h _ => h

end Masque.State

theorem always_scansWith_iff (cm : CaseMap) (su : Setup) : (∀ verifies cooldown,
      (∀ events, Lts.Always WireGuard.State.step (WireGuard.State.ScansWith cm (su.configured cm))
        (.start cm su none verifies cooldown) events) ↔
          WireGuard.quickCandidate su none verifies = none ∨ (su.configured cm).IsDefault cm) ∧
      ∀ verifies inner avoid,
        (∀ events, Lts.Always Masque.State.step (Masque.State.ScansWith cm (su.configured cm))
          (.start cm su none verifies inner avoid) events) ↔
            Masque.quickPeer su none verifies = none ∨ (su.configured cm).IsDefault cm :=
  ⟨WireGuard.State.scansWith_iff cm su, Masque.State.scansWith_iff cm su⟩

def thorough : Setup :=
  { silent with
    scanVar := some "thorough".toList
    reconnectVar := some "1".toList
    cached := some (gateway, "firewall".toList) }

-- When this gateway is left, the scan is a balanced one.
theorem not_always_scansWith :
    ¬ Lts.Always Masque.State.step (Masque.State.ScansWith .ascii (thorough.configured .ascii))
      (.start .ascii thorough none (fun _ => true) false []) [.next, .ended .migrate, .next] :=
  Lts.not_always (by decide +kernel)

end Engine.Reconnect
