import SoildTunnel.App.TorManager

-- Whether tor keeps the exit country that was chosen last when it is started again.
namespace App.TorManager

open Kotlin Text List

variable (cm : CaseMap) (p : ConnectionProfile)

def lastSwitch (last : Option Text) : Call → Option Text
  | .start _ keepExit => if keepExit then last else none
  | .switchExitCountry countryCode => some countryCode

def switched (calls : List Call) : Option Text :=
  calls.foldl lastSwitch none

def pins (torrc : List Text) : List Text :=
  torrc.filter fun line => (lit "ExitNodes ").isPrefixOf line

def pinsFor (exit : Text) : List Text :=
  if isCountry exit then [exitNodes exit] else []

theorem pins_map {α : Type*} {f : α → Text} (l : List α) (h : ∀ a, (lit "ExitNodes ").isPrefixOf (f a) = false) :
    pins (l.map f) = [] := by
  refine filter_eq_nil_iff.mpr fun line hl => ?_
  obtain ⟨a, -, rfl⟩ := mem_map.mp hl
  exact Bool.eq_false_iff.mp (h a)

theorem pins_buildTorrc (s : State) (dir : Text) (plugins : List (Text × Nat)) (lines : List Text) :
    pins (buildTorrc cm s dir p plugins lines) =
      pinsFor (if isBlank s.desiredExit then normalExit cm p.torExitCountry else s.desiredExit) := by
  have happ (a b : List Text) : pins (a ++ b) = pins a ++ pins b := filter_append ..
  unfold buildTorrc
  dsimp only
  generalize (if isBlank s.desiredExit then normalExit cm p.torExitCountry else s.desiredExit) = exit
  rw [happ, happ, pinsFor]
  -- No other line starts with an E.
  have hb (port : Nat → Text) : pins (if lines = [] then [lit "UseBridges 0"] else lit "UseBridges 1" ::
      plugins.map (fun x => lit "ClientTransportPlugin " ++ x.1 ++ lit " socks5 " ++ port x.2) ++
      lines.map (lit "Bridge " ++ ·)) = [] := by
    split
    case isTrue => rfl
    case isFalse =>
      rw [happ, pins_map lines fun _ => rfl, append_nil]
      exact pins_map plugins fun _ => rfl
  rw [hb fun n => lit "127.0.0.1:" ++ decimal n]
  split <;> rfl

theorem desiredExit_foldl (calls : List Call) {s : State} {last : Option Text}
    (hs : s.desiredExit = normalExit cm (last.getD p.torExitCountry) ∨ last = none ∧ s.desiredExit = []) :
    let t := calls.foldl (step cm p) s
    t.desiredExit = normalExit cm ((calls.foldl lastSwitch last).getD p.torExitCountry) ∨
      calls.foldl lastSwitch last = none ∧ t.desiredExit = [] := by
  induction calls generalizing s last
  case nil => exact hs
  case cons c calls ih =>
    refine ih ?_
    cases c
    case start ports keepExit =>
      cases keepExit
      case true => exact hs
      case false => exact .inl rfl
    case switchExitCountry => exact .inl rfl

theorem not_isCountry_of_isBlank {exit : Text} (h : isBlank exit) : isCountry exit = false := by
  cases exit
  case nil => rfl
  case cons c t =>
    have hc : isWhitespace c := (all_eq_true.mp h) c mem_cons_self
    have hn : ¬ (65 ≤ c ∧ c ≤ 90) := by
      rintro ⟨h₁, h₂⟩
      simp only [isWhitespace, Bool.or_eq_true, Bool.and_eq_true, decide_eq_true_eq] at hc
      grind
    have hn : (decide (65 ≤ c) && decide (c ≤ 90)) = false := by simpa using hn
    simp [isCountry, hn]

theorem pinsFor_inj_iff {a b : Text} (h : isCountry b = false) : pinsFor a = pinsFor b ↔ isCountry a = false := by
  unfold pinsFor
  cases isCountry a <;> simp [h]

theorem pins_restart_iff (ports : Ports) (calls : List Call) (ports' : Ports) (dir : Text) (plugins : List (Text × Nat))
    (lines : List Text) :
    pins (buildTorrc cm (start cm (calls.foldl (step cm p) { ports }) ports' p true) dir p plugins lines) =
        pinsFor (normalExit cm ((switched calls).getD p.torExitCountry)) ↔
      ¬ ∃ countryCode, switched calls = some countryCode ∧ isBlank (normalExit cm countryCode) ∧
        isCountry (normalExit cm p.torExitCountry) := by
  have hd := desiredExit_foldl cm p calls (s := { ports }) (.inr ⟨rfl, rfl⟩)
  rw [pins_buildTorrc, start, if_pos rfl]
  generalize calls.foldl (step cm p) { ports } = s at hd ⊢
  cases hs : switched calls
  case none =>
    rw [show calls.foldl lastSwitch none = none from hs] at hd
    refine iff_of_true ?_ (by simp)
    obtain hd | ⟨-, hd⟩ := hd
    case inl => rw [hd, Option.getD_none, ite_self]
    case inr => rw [hd]; rfl
  case some countryCode =>
    rw [show calls.foldl lastSwitch none = _ from hs] at hd
    have hd : s.desiredExit = normalExit cm countryCode := by simpa using hd
    rw [hd, Option.getD_some]
    by_cases hb : isBlank (normalExit cm countryCode)
    case pos =>
      rw [if_pos hb, pinsFor_inj_iff (not_isCountry_of_isBlank hb)]
      simp [hb]
    case neg =>
      rw [if_neg hb]
      simp [hb]

-- The profile wants Germany, the exit is switched to automatic, and tor is started again.
theorem pins_restart_automatic :
    let p : ConnectionProfile := { torExitCountry := lit "de" }
    let ports : Ports := ⟨9050, 5400, 9051⟩
    let calls : List Call := [.start ports false, .switchExitCountry []]
    switched calls = some [] ∧
      pins (buildTorrc .ascii (start .ascii (calls.foldl (step .ascii p) { ports }) ports p true) [] p [] []) =
        [lit "ExitNodes \x7bDE\x7d"] := by
  decide

end App.TorManager
