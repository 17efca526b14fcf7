import Mathlib

-- Tasks that run side by side, a limited number at a time. They are started in their order and end
-- in any order.
structure Pool (α : Type*) where
  waiting : List α
  running : List α

namespace Pool

open List

variable {α : Type*}

def start (limit : Nat) (tasks : List α) : Pool α where
  waiting := tasks.drop limit
  running := tasks.take limit

-- A task ends and makes room for the next one.
def complete (p : Pool α) (i : Nat) : Option (α × Pool α) :=
  p.running[i]?.map fun a => (a, ⟨p.waiting.drop 1, p.running.eraseIdx i ++ p.waiting.take 1⟩)

def Forall (P : α → Prop) (p : Pool α) : Prop :=
  (∀ a ∈ p.waiting, P a) ∧ ∀ a ∈ p.running, P a

variable {P : α → Prop} {p p' : Pool α} {a : α} {i limit : Nat} {tasks : List α}

theorem forall_start (h : ∀ a ∈ tasks, P a) : (start limit tasks).Forall P :=
  ⟨fun a ha => h a (mem_of_mem_drop ha), fun a ha => h a (mem_of_mem_take ha)⟩

theorem Forall.complete (h : p.Forall P) (hc : p.complete i = some (a, p')) : P a ∧ p'.Forall P := by
  have ⟨b, hb, he⟩ := Option.map_eq_some_iff.mp hc
  cases he
  refine ⟨h.2 a (mem_of_getElem? hb), fun c hc => h.1 c (mem_of_mem_drop hc), fun c hc => ?_⟩
  rcases mem_append.mp hc with hc | hc
  · exact h.2 c (mem_of_mem_eraseIdx hc)
  · exact h.1 c (mem_of_mem_take hc)

def unfinished (p : Pool α) : List α :=
  p.running ++ p.waiting

theorem unfinished_start (limit : Nat) (tasks : List α) : (start limit tasks).unfinished = tasks :=
  take_append_drop limit tasks

theorem unfinished_complete (hc : p.complete i = some (a, p')) : p.unfinished.Perm (a :: p'.unfinished) := by
  have ⟨b, hb, he⟩ := Option.map_eq_some_iff.mp hc
  cases he
  obtain ⟨hi, rfl⟩ := List.getElem?_eq_some_iff.mp hb
  simp only [unfinished, append_assoc, take_append_drop]
  exact (getElem_cons_eraseIdx_perm hi).symm.append_right p.waiting

theorem complete_start (a : α) (tasks : List α) (h : 0 < limit) :
    (start limit (a :: tasks)).complete 0 = some (a, start limit tasks) := by
  obtain ⟨n, rfl⟩ := Nat.exists_eq_add_one.mpr h
  have ht : tasks.take n ++ (tasks.drop n).take 1 = tasks.take (n + 1) := take_add.symm
  simp [complete, start, ht]

end Pool
