import Mathlib

-- The search for the first element of a list that fits, by a loop that returns nothing as soon as it
-- meets an element that it cannot read.
namespace Search

open List Option

variable {α β γ : Type*} (read : α → Option β) (test : β → Option γ)

def scan : List α → Option γ
  | [] => none
  | a :: l => (read a).bind fun b => (test b).or (scan l)

-- What an element yields, if it can be read and fits.
def hit (a : α) : Option γ :=
  (read a).bind test

variable {read test} {l before after : List α} {a : α} {c : γ}

theorem scan_cons_of_hit (h : hit read test a = some c) : scan read test (a :: l) = some c := by
  obtain ⟨b, hr, ht⟩ := bind_eq_some_iff.mp h
  rw [scan, hr, bind_some, ht, some_or]

theorem scan_cons_of_not_hit (h : hit read test a = none) :
    scan read test (a :: l) = if (read a).isSome then scan read test l else none := by
  rw [scan]
  cases hr : read a
  case none => rfl
  case some b =>
    have ht : test b = none := by simpa [hit, hr] using h
    simp [ht]

theorem scan_eq_none (h : ∀ a ∈ l, hit read test a = none) : scan read test l = none := by
  induction l
  case nil => rfl
  case cons a l ih =>
    rw [scan_cons_of_not_hit (h a mem_cons_self), ih fun b hb => h b (mem_cons_of_mem a hb), ite_self]

theorem scan_first (hb : ∀ b ∈ before, hit read test b = none) (ha : hit read test a = some c) :
    scan read test (before ++ a :: after) = if ∀ b ∈ before, (read b).isSome then some c else none := by
  induction before
  case nil => simp [scan_cons_of_hit ha]
  case cons b before ih =>
    rw [cons_append, scan_cons_of_not_hit (hb b mem_cons_self),
      ih fun b' hb' => hb b' (mem_cons_of_mem b hb')]
    simp only [forall_mem_cons]
    split
    case isTrue hr => simp [hr]
    case isFalse hr => simp [hr]

variable {f : α → Option γ}

theorem first_or_none (l : List α) :
    (∀ a ∈ l, f a = none) ∨ ∃ before a after c, l = before ++ a :: after ∧ (∀ b ∈ before, f b = none) ∧ f a = some c := by
  induction l
  case nil => exact .inl nofun
  case cons a l ih =>
    cases ha : f a
    case some c => exact .inr ⟨[], a, l, c, rfl, nofun, ha⟩
    case none =>
      rcases ih with h | ⟨before, b, after, c, rfl, hb, hc⟩
      · exact .inl (forall_mem_cons.mpr ⟨ha, h⟩)
      · exact .inr ⟨a :: before, b, after, c, rfl, forall_mem_cons.mpr ⟨ha, hb⟩, hc⟩

theorem first_unique {before' after' : List α} {a' : α} {c' : γ}
    (he : before ++ a :: after = before' ++ a' :: after') (hb : ∀ b ∈ before, f b = none) (ha : f a = some c)
    (hb' : ∀ b ∈ before', f b = none) (ha' : f a' = some c') : before = before' ∧ a = a' ∧ after = after' := by
  induction before generalizing before'
  case nil =>
    cases before'
    case nil =>
      obtain ⟨h, h'⟩ := List.cons.inj he
      exact ⟨rfl, h, h'⟩
    case cons b before' =>
      obtain ⟨rfl, _⟩ := List.cons.inj he
      cases (hb' a mem_cons_self).symm.trans ha
  case cons b before ih =>
    cases before'
    case nil =>
      obtain ⟨rfl, _⟩ := List.cons.inj he
      cases (hb b mem_cons_self).symm.trans ha'
    case cons b' before' =>
      obtain ⟨rfl, he'⟩ := List.cons.inj he
      obtain ⟨rfl, h⟩ := ih he' (fun x hx => hb x (mem_cons_of_mem b hx)) (fun x hx => hb' x (mem_cons_of_mem b hx))
      exact ⟨rfl, h⟩

theorem findSome?_first (hb : ∀ b ∈ before, f b = none) (ha : f a = some c) :
    (before ++ a :: after).findSome? f = some c := by
  rw [List.findSome?_append, List.findSome?_eq_none_iff.mpr hb, none_or, List.findSome?_cons, ha]

theorem scan_eq_findSome?_iff : scan read test l = l.findSome? (hit read test) ↔
      ∀ before a after c, l = before ++ a :: after → (∀ b ∈ before, hit read test b = none) → hit read test a = some c →
        ∀ b ∈ before, (read b).isSome := by
  rcases first_or_none (f := hit read test) l with hn | ⟨before, a, after, c, rfl, hb, ha⟩
  · rw [scan_eq_none hn, List.findSome?_eq_none_iff.mpr hn]
    refine iff_of_true rfl fun before a after c he _ ha => ?_
    cases (hn a (he ▸ mem_append_right before mem_cons_self)).symm.trans ha
  · rw [findSome?_first hb ha, scan_first hb ha]
    split
    case isTrue h =>
      refine iff_of_true rfl fun before' a' after' c' he' hb' ha' => ?_
      obtain ⟨rfl, _⟩ := first_unique he' hb ha hb' ha'
      exact h
    case isFalse h => exact iff_of_false nofun fun h' => h (h' before a after c rfl hb ha)

end Search
