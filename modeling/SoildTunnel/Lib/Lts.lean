import Mathlib

-- Deterministic labelled transition systems. Everything the environment decides (which party moves
-- next, what the network does) is part of the label, so that a step is a partial function.
namespace Lts

open Option

variable {σ ι : Type*} (step : σ → ι → Option σ)

def exec (s : σ) : List ι → Option σ
  | [] => some s
  | l :: ls => (step s l).bind (exec · ls)

-- `P` holds of every state that the run visits, the first one included.
def Always (P : σ → Prop) (s : σ) : List ι → Prop
  | [] => P s
  | l :: ls => P s ∧ ∀ s', step s l = some s' → Always P s' ls

-- Every step of the run meets the condition `Ok` in the state in which it is taken.
def Admits (Ok : σ → ι → Prop) (s : σ) : List ι → Prop
  | [] => True
  | l :: ls => ∀ s', step s l = some s' → Ok s l ∧ Admits Ok s' ls

variable {step}

@[simp]
theorem exec_nil (s : σ) : exec step s [] = some s := rfl

@[simp]
theorem exec_cons (s : σ) (l : ι) (ls : List ι) : exec step s (l :: ls) = (step s l).bind (exec step · ls) := rfl

theorem exec_append (s : σ) (ls ls' : List ι) :
    exec step s (ls ++ ls') = (exec step s ls).bind (exec step · ls') := by
  induction ls generalizing s
  case nil => rfl
  case cons l ls ih =>
    cases h : step s l
    case none => simp [h]
    case some t => simp [h, ih]

variable {ls : List ι} {s : σ} {I : σ → Prop}

-- The invariant rule: what the first state has and each step keeps, every run keeps.
theorem exec_invariant (hs : ∀ s l s', I s → step s l = some s' → I s')
    {s' : σ} (hi : I s) (h : exec step s ls = some s') : I s' := by
  induction ls generalizing s
  case nil => simp at h; exact h ▸ hi
  case cons l ls ih =>
    have ⟨t, ht, h⟩ := bind_eq_some_iff.mp h
    exact ih (hs s l t hi ht) h

variable {P : σ → Prop}

theorem Always.head (h : Always step P s ls) : P s := by
  cases ls
  case nil => exact h
  case cons => exact h.left

theorem Always.mono {Q : σ → Prop} (h : Always step P s ls) (hq : ∀ s, P s → Q s) : Always step Q s ls := by
  induction ls generalizing s
  case nil => exact hq s h
  case cons l ls ih => exact ⟨hq s h.left, fun t ht => ih (h.right t ht)⟩

theorem Always.of_exec {s' : σ} {ls' : List ι}
    (h : Always step P s (ls ++ ls')) (hx : exec step s ls = some s') : Always step P s' ls' := by
  induction ls generalizing s
  case nil => simp at hx; exact hx ▸ h
  case cons l ls ih =>
    have ⟨t, ht, hx⟩ := bind_eq_some_iff.mp hx
    exact ih (h.right t ht) hx

-- The property of the visited states, in terms of the prefixes of the run.
theorem always_iff : Always step P s ls ↔ ∀ ls₁ ls₂ s', ls = ls₁ ++ ls₂ → exec step s ls₁ = some s' → P s' := by
  induction ls generalizing s
  case nil =>
    refine ⟨fun h ls₁ ls₂ s' he hx => ?_, fun h => h [] [] s rfl rfl⟩
    obtain ⟨rfl, rfl⟩ := List.append_eq_nil_iff.mp he.symm
    simp at hx
    exact hx ▸ h
  case cons l ls ih =>
    constructor
    case mp =>
      intro ⟨hp, h⟩ ls₁ ls₂ s' he hx
      cases ls₁
      case nil => simp at hx; exact hx ▸ hp
      case cons l' ls₁ =>
        obtain ⟨rfl, rfl⟩ := List.cons.inj he
        have ⟨t, ht, hx⟩ := bind_eq_some_iff.mp hx
        exact ih.mp (h t ht) ls₁ ls₂ s' rfl hx
    case mpr =>
      intro h
      refine ⟨h [] (l :: ls) s rfl rfl, fun t ht => ih.mpr fun ls₁ ls₂ s' he hx => ?_⟩
      exact h (l :: ls₁) ls₂ s' (by simp [he]) (by simp [ht, hx])

theorem Always.last {s' : σ} (h : Always step P s ls) (hx : exec step s ls = some s') : P s' :=
  always_iff.mp h ls [] s' (List.append_nil ls).symm hx

-- A run refutes what can be decided in its last state.
theorem not_always [DecidablePred P] (h : (exec step s ls).any fun s => ¬ P s) : ¬ Always step P s ls := by
  intro ha
  have ⟨t, hx, hn⟩ := (any_eq_true ..).mp h
  exact of_decide_eq_true hn (ha.last hx)

-- When each step from a good state leads to a good state exactly under `Ok`, a run stays good
-- exactly when all of its steps meet `Ok`. The invariant `I` may be used on the way; it has to last
-- as long as the run is good.
theorem always_iff_admits {Ok : σ → ι → Prop} (hs : ∀ s l s', I s → P s → step s l = some s' → P s' → I s')
    (hp : ∀ s l s', I s → P s → step s l = some s' → (P s' ↔ Ok s l)) (hi : I s) (h : P s) : Always step P s ls ↔ Admits step Ok s ls := by
  induction ls generalizing s
  case nil => simp [Always, Admits, h]
  case cons l ls ih =>
    simp only [Always, Admits, h, true_and]
    refine forall₂_congr fun t ht => ?_
    rw [← hp s l t hi h ht]
    constructor
    case mp => exact fun ha => ⟨ha.head, (ih (hs s l t hi h ht ha.head) ha.head).mp ha⟩
    case mpr => exact fun ⟨hpt, ha⟩ => (ih (hs s l t hi h ht hpt) hpt).mpr ha

-- The same in one direction, for an invariant that only the steps that meet `Ok` keep.
theorem always_of_admits {Ok : σ → ι → Prop}
    (hs : ∀ s l s', I s → Ok s l → step s l = some s' → I s') (hp : ∀ s, I s → P s) (hi : I s) (h : Admits step Ok s ls) : Always step P s ls := by
  induction ls generalizing s
  case nil => exact hp s hi
  case cons l ls ih =>
    refine ⟨hp s hi, fun t ht => ?_⟩
    have ⟨hok, ha⟩ := h t ht
    exact ih (hs s l t hi hok ht) ha

theorem always_of_invariant (hs : ∀ s l s', I s → step s l = some s' → I s') (hp : ∀ s, I s → P s) (hi : I s) (ls : List ι) : Always step P s ls :=
  always_iff.mpr fun _ _ _ _ hx => hp _ (exec_invariant hs hi hx)

section Observed

variable {γ : Type*} {obs : σ → ι → σ → γ → γ}

-- A run with an account of what happens in it. The account takes no part in the run.
variable (step obs) in
def observed (p : σ × γ) (l : ι) : Option (σ × γ) :=
  (step p.1 l).map fun s => (s, obs p.1 l s p.2)

theorem observed_eq_some {p p' : σ × γ} {l : ι} :
    observed step obs p l = some p' ↔ step p.1 l = some p'.1 ∧ p'.2 = obs p.1 l p'.1 p.2 := by
  rw [observed, map_eq_some_iff]
  constructor
  case mp =>
    rintro ⟨s, hs, rfl⟩
    exact ⟨hs, rfl⟩
  case mpr =>
    rintro ⟨hs, hg⟩
    exact ⟨p'.1, hs, by rw [← hg]⟩

end Observed

-- What never changes has a property whenever `A` holds, if it has it at first or `A` never holds.
theorem always_constant_iff {κ : Type*} {f : σ → κ} (hf : ∀ s l s', step s l = some s' → f s' = f s) {A : σ → Prop}
    {R : κ → Prop} :
    (∀ ls, Always step (fun s => A s → R (f s)) s ls) ↔ ((∃ ls s', exec step s ls = some s' ∧ A s') → R (f s)) := by
  have hconst {ls : List ι} {s' : σ} (hx : exec step s ls = some s') : f s' = f s :=
    exec_invariant (I := fun s' => f s' = f s) (fun t l t' h ht => (hf t l t' ht).trans h) rfl hx
  constructor
  case mp =>
    rintro h ⟨ls, s', hx, ha⟩
    exact hconst hx ▸ (h ls).last hx ha
  case mpr =>
    intro h ls
    refine always_iff.mpr fun ls₁ _ s' _ hx ha => ?_
    exact (hconst hx).symm ▸ h ⟨ls₁, s', hx, ha⟩

instance Admits.decidable {Ok : σ → ι → Prop} [∀ s l, Decidable (Ok s l)] :
    (s : σ) → (ls : List ι) → Decidable (Admits step Ok s ls)
  | _, [] => isTrue trivial
  | s, l :: ls =>
    match h : step s l with
    | none => isTrue fun _ ht => by cases h.symm.trans ht
    | some t =>
      have : Decidable (Admits step Ok t ls) := Admits.decidable t ls
      decidable_of_iff (Ok s l ∧ Admits step Ok t ls)
        ⟨fun ha _ ht => some_inj.mp (h.symm.trans ht) ▸ ha, fun ha => ha t h⟩

end Lts
