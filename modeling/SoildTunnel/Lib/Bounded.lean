import Mathlib

-- A queue of limited capacity that drops what does not fit.
structure Bounded (α : Type*) (cap : Nat) where
  items : List α
  length_le : items.length ≤ cap

namespace Bounded

variable {α : Type*} {cap : Nat}

def empty : Bounded α cap where
  items := []
  length_le := cap.zero_le

-- `none` when the queue is full.
def offer (q : Bounded α cap) (a : α) : Option (Bounded α cap) :=
  if h : q.items.length < cap then some ⟨q.items ++ [a], by simp; omega⟩ else none

-- `none` is the exception for a full queue.
def addFirst (q : Bounded α cap) (a : α) : Option (Bounded α cap) :=
  if h : q.items.length < cap then some ⟨a :: q.items, by simp; omega⟩ else none

def poll (q : Bounded α cap) : Option (α × Bounded α cap) :=
  match h : q.items with
  | [] => none
  | a :: l => some (a, ⟨l, by have := q.length_le; simp_all; omega⟩)

@[simp]
theorem empty_items : (empty : Bounded α cap).items = [] := rfl

variable {q : Bounded α cap}

theorem offer_eq_some {r : Bounded α cap} {a : α} (h : q.offer a = some r) :
    q.items.length < cap ∧ r.items = q.items ++ [a] := by
  unfold offer at h
  split at h
  case isTrue hl => cases h; exact ⟨hl, rfl⟩
  case isFalse => cases h

theorem offer_eq_none {a : α} : q.offer a = none ↔ cap ≤ q.items.length := by
  unfold offer
  split
  case isTrue h => simpa using h
  case isFalse h => simpa using h

theorem poll_eq_some {r : Bounded α cap} {a : α} (h : q.poll = some (a, r)) : q.items = a :: r.items := by
  unfold poll at h
  split at h
  case h_1 => cases h
  case h_2 hq => cases h; exact hq

theorem poll_eq_none (h : q.poll = none) : q.items = [] := by
  unfold poll at h
  split at h
  case h_1 hq => exact hq
  case h_2 => cases h

end Bounded
