import Mathlib

-- Items that are taken off the front of a buffer which fills up piece by piece.
namespace Incremental

open List

variable {α β : Type*}

-- Takes an item if a whole one is there, and then leaves less than there was.
abbrev Taker (α β : Type*) := (b : List α) → Option (β × { r : List α // r.length < b.length })

variable (take : Taker α β)

-- The item and the rest, without the bound.
def next (b : List α) : Option (β × List α) :=
  (take b).map fun (x, r) => (x, r.val)

-- An item that is there is taken whatever comes after it.
def Stable : Prop :=
  ∀ b c x r, next take b = some (x, r) → next take (b ++ c) = some (x, r ++ c)

-- Takes items until none is complete.
def drain (b : List α) : List β × List α :=
  match take b with
  | none => ([], b)
  | some (x, r) =>
    let (xs, rest) := drain r.val
    (x :: xs, rest)
termination_by b.length
decreasing_by exact r.property

-- The pieces come one by one, and the buffer is drained after each of them.
def feed (b : List α) : List (List α) → List β × List α
  | [] => ([], b)
  | c :: cs =>
    let (xs, r) := drain take (b ++ c)
    let (ys, rest) := feed r cs
    (xs ++ ys, rest)

variable {take} {b c r : List α} {x : β}

theorem drain_of_none (h : next take b = none) : drain take b = ([], b) := by
  have ht : take b = none := Option.map_eq_none_iff.mp h
  rw [drain, ht]

theorem drain_of_some (h : next take b = some (x, r)) : drain take b = (x :: (drain take r).1, (drain take r).2) := by
  have ⟨⟨y, s⟩, ht, he⟩ := Option.map_eq_some_iff.mp h
  obtain ⟨rfl, rfl⟩ := Prod.mk.inj he
  rw [drain, ht]

theorem length_lt_of_next (h : next take b = some (x, r)) : r.length < b.length := by
  have ⟨⟨y, s⟩, _, he⟩ := Option.map_eq_some_iff.mp h
  obtain ⟨rfl, rfl⟩ := Prod.mk.inj he
  exact s.property

theorem drain_induction (take : Taker α β) {P : List α → Prop} (none : ∀ b, next take b = none → P b)
    (some : ∀ b x r, next take b = some (x, r) → P r → P b) (b : List α) : P b := by
  induction hn : b.length using Nat.strong_induction_on generalizing b
  case h n ih =>
    cases h : next take b
    case none => exact none b h
    case some p => exact some b p.1 p.2 h (ih _ (hn ▸ length_lt_of_next h) p.2 rfl)

theorem next_drain (b : List α) : next take (drain take b).2 = none := by
  induction b using drain_induction take
  case none b h => rw [drain_of_none h]; exact h
  case some b x r h ih => rw [drain_of_some h]; exact ih

theorem mem_drain (h : x ∈ (drain take b).1) : ∃ b r, next take b = some (x, r) := by
  induction b using drain_induction take
  case none b hn => rw [drain_of_none hn] at h; cases h
  case some b y r hs ih =>
    rw [drain_of_some hs] at h
    rcases mem_cons.mp h with rfl | h
    · exact ⟨b, r, hs⟩
    · exact ih h

theorem drain_append (hs : Stable take) (b c : List α) : drain take (b ++ c) =
      ((drain take b).1 ++ (drain take ((drain take b).2 ++ c)).1, (drain take ((drain take b).2 ++ c)).2) := by
  induction b using drain_induction take
  case none b h => rw [drain_of_none h, nil_append]
  case some b x r h ih => rw [drain_of_some (hs b c x r h), drain_of_some h, ih, cons_append]

theorem feed_cons (b c : List α) (cs : List (List α)) : feed take b (c :: cs) =
      ((drain take (b ++ c)).1 ++ (feed take (drain take (b ++ c)).2 cs).1,
        (feed take (drain take (b ++ c)).2 cs).2) := rfl

-- It does not matter how the input is cut.
theorem feed_eq_drain (hs : Stable take) (h : next take b = none) (cs : List (List α)) :
    feed take b cs = drain take (b ++ cs.flatten) := by
  induction cs generalizing b
  case nil => rw [flatten_nil, append_nil, drain_of_none h, feed]
  case cons c cs ih =>
    rw [feed_cons, ih (next_drain (b ++ c)), flatten_cons, ← append_assoc, drain_append hs (b ++ c)]

end Incremental
