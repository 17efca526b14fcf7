import Mathlib

-- A slab: values in numbered slots, where a removed value leaves its slot free and a new value
-- takes the first free slot.
structure Slab (α : Type*) where
  slots : List (Option α) := []

namespace Slab

variable {α : Type*}

def get? (s : Slab α) (h : Nat) : Option α :=
  (s.slots[h]?).join

def insertFirst (a : α) : List (Option α) → List (Option α) × Nat
  | [] => ([some a], 0)
  | none :: l => (some a :: l, 0)
  | some b :: l => (some b :: (insertFirst a l).1, (insertFirst a l).2 + 1)

def add (s : Slab α) (a : α) : Slab α × Nat :=
  (⟨(insertFirst a s.slots).1⟩, (insertFirst a s.slots).2)

def put (s : Slab α) (h : Nat) (a : α) : Slab α :=
  ⟨s.slots.set h (some a)⟩

def remove (s : Slab α) (h : Nat) : Slab α :=
  ⟨s.slots.set h none⟩

@[simp]
theorem get?_empty (h : Nat) : get? (⟨[]⟩ : Slab α) h = none := by
  simp [get?]

theorem insertFirst_free (a : α) (l : List (Option α)) : (l[(insertFirst a l).2]?).join = none := by
  fun_induction insertFirst a l <;> simp_all

theorem insertFirst_get (a : α) (l : List (Option α)) (k : Nat) :
    ((insertFirst a l).1[k]?).join = if k = (insertFirst a l).2 then some a else (l[k]?).join := by
  induction l generalizing k
  case nil => cases k <;> simp [insertFirst]
  case cons o l ih =>
    cases o <;> cases k <;> simp [insertFirst, ih]

theorem get?_add_handle (s : Slab α) (a : α) : s.get? (s.add a).2 = none :=
  insertFirst_free a s.slots

theorem get?_add (s : Slab α) (a : α) (k : Nat) : (s.add a).1.get? k = if k = (s.add a).2 then some a else s.get? k :=
  insertFirst_get a s.slots k

theorem get?_put {s : Slab α} {h : Nat} {b : α} (hb : s.get? h = some b) (a : α) (k : Nat) :
    (s.put h a).get? k = if k = h then some a else s.get? k := by
  have hl : h < s.slots.length := by
    by_contra hc
    simp [get?, List.getElem?_eq_none (Nat.le_of_not_lt hc)] at hb
  simp only [get?, put, List.getElem?_set]
  grind

theorem get?_remove (s : Slab α) (h k : Nat) : (s.remove h).get? k = if k = h then none else s.get? k := by
  simp only [get?, remove, List.getElem?_set]
  grind

theorem get?_remove_eq_some {s : Slab α} {h k : Nat} {a : α} :
    (s.remove h).get? k = some a ↔ k ≠ h ∧ s.get? k = some a := by
  rw [get?_remove, Option.ite_none_left_eq_some]

end Slab
