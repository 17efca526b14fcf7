import SoildTunnel.App.Ladder
import SoildTunnel.App.Theorems.SmartAuto
import SoildTunnel.App.Upstream
import SoildTunnel.Engine.Theorems.Range

-- What is remembered after a strategy has won: the pinned range, and the recipe.
namespace App.SmartAuto

open Kotlin

theorem exists_mem_of_runLadder {attempt : ConnectionProfile → Attempt} {plan : List AutoCandidate}
    {w : ConnectionProfile} (h : runLadder attempt plan = .won w) : ∃ c ∈ plan, c.profile = w := by
  induction plan
  case nil => cases h
  case cons c plan ih =>
    unfold runLadder at h
    split at h
    case h_1 =>
      cases h
      exact ⟨c, List.mem_cons_self, rfl⟩
    case h_2 =>
      obtain ⟨c', hc, he⟩ := ih h
      exact ⟨c', List.mem_cons_of_mem c hc, he⟩
    case h_3 => cases h

section Winner

variable {user w : ConnectionProfile} {fp : NetworkFingerprint} {times : Times}
  {attempt : ConnectionProfile → Attempt} {stores stores' : Stores}

theorem connectSmartAuto_won (h : connectSmartAuto user fp times attempt stores = (stores', .won w)) :
    ∃ (r : Rung) (ranges : Text),
      ranges ∈ [] :: bestRanges fp ((StickyServer.usable stores.sticky times.opened).1.map (·.range)) ::
        (StrategyMemo.recallRecipe stores.memo fp times.probed).1.toList.map (·.range.trim) ∧
      Planned user fp r ranges w ∧
      stores'.sticky = keepSticky user w (StickyServer.usable stores.sticky times.opened).1 times.saved
        (StickyServer.usable stores.sticky times.opened).2 ∧
      stores'.memo (StrategyMemo.keyOf fp) = some (recipeOf w times.won) := by
  unfold connectSmartAuto at h
  dsimp only at h
  split at h
  case h_1 won hl =>
    cases h
    obtain ⟨c, hc, rfl⟩ := exists_mem_of_runLadder hl
    obtain ⟨r, ranges, hr, hp⟩ := planned_of_mem hc
    exact ⟨r, ranges, hr, hp, rfl, by simp [StrategyMemo.record]⟩
  case h_2 => cases h
  case h_3 => cases h

variable {pin : StickyServer.Pin} {prefs : Option StickyServer.Pin} {now : Int}

-- Every address that the engine reads in the one range is among those it reads in the other.
def Covers (range other : Text) : Prop :=
  ∀ ip, Engine.Scan.Inside (Engine.Scan.manualRanges (envText other.trim)) ip →
    Engine.Scan.Inside (Engine.Scan.manualRanges (envText range.trim)) ip

theorem Covers.refl (range : Text) : Covers range range :=
  fun _ h => h

def Scanned (pin : StickyServer.Pin) (w : ConnectionProfile) : Prop :=
  w.endpointMode = .manualRange ∧ Covers w.manualRange pin.range

end Winner

def atOnce : Times := ⟨1, 1, 1, 1⟩

theorem recipe_unpinned_iff (user : ConnectionProfile) (fp : NetworkFingerprint) (times : Times)
    (attempt : ConnectionProfile → Attempt) (stores stores' : Stores) (w : ConnectionProfile)
    (hu : user.endpointMode ≠ .auto) (h : connectSmartAuto user fp times attempt stores = (stores', .won w)) :
    (∃ recipe, stores'.memo (StrategyMemo.keyOf fp) = some recipe ∧ recipe.range = []) ↔
      ¬ (user.endpointMode = .manualRange ∧ user.manualRange ≠ [] ∧ ¬ CarriedMode w) := by
  obtain ⟨r, ranges, -, hw, -, hr⟩ := connectSmartAuto_won h
  have he := hw.endpoint
  unfold endpointOf endpoint at he
  rw [hr]
  simp only [Option.some.injEq, exists_eq_left', recipeOf]
  by_cases hc : CarriedMode w
  case pos => simp_all
  case neg =>
    rw [if_neg hc, if_pos hu] at he
    obtain ⟨hmode, hrange⟩ := Prod.ext_iff.mp he
    dsimp only at hmode hrange
    rw [hmode, hrange]
    by_cases hm : user.endpointMode = .manualRange
    case pos => simp [hm, hc]
    case neg => simp [hm]

def emptyStores : Stores where
  sticky := none
  memo _ := none

-- A pinned peer is not remembered.
theorem recipe_unpinned_peer :
    let user : ConnectionProfile := { endpointMode := .manualPeer, manualPeer := lit "8.6.112.1:443" }
    let result := connectSmartAuto user openNetwork atOnce (fun _ => .connected) emptyStores
    ∃ recipe, result.1.memo (StrategyMemo.keyOf openNetwork) = some recipe ∧ recipe.range = [] := by
  intro user result
  have hw : result.2 = .won (rung user openNetwork none (firstRung .open)).profile := by decide +kernel
  refine (recipe_unpinned_iff user openNetwork atOnce (fun _ => .connected) emptyStores result.1 _ nofun
    (Prod.ext rfl hw)).mpr ?_
  rintro ⟨h, -⟩
  cases h

-- A pinned range is.
theorem recipe_pinned_range :
    let user : ConnectionProfile := { endpointMode := .manualRange, manualRange := lit "8.6.112.0/24" }
    let result := connectSmartAuto user openNetwork atOnce (fun _ => .connected) emptyStores
    (result.1.memo (StrategyMemo.keyOf openNetwork)).map Recipe.range = some (lit "8.6.112.0/24") := by
  intro user result
  decide +kernel

end App.SmartAuto
