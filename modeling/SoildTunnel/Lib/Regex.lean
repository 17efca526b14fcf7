import Mathlib

-- Regular expressions over an arbitrary alphabet, with classes of symbols and bounded repetition,
-- as they match a whole text.
inductive Regex (α : Type*)
  | empty
  | cls (p : α → Bool)
  | seq (r s : Regex α)
  | alt (r s : Regex α)
  | rep (r : Regex α) (lo hi : Nat)

namespace Regex

open List

variable {α : Type*}

def opt (r : Regex α) : Regex α := alt r empty

def word [DecidableEq α] : List α → Regex α
  | [] => empty
  | a :: as => seq (cls (· = a)) (word as)

-- Some way to split the text suits both.
def splits (f g : List α → Bool) (l : List α) : Bool :=
  (List.range (l.length + 1)).any fun i => f (l.take i) && g (l.drop i)

-- At least `lo` and at most `hi` pieces.
def repeats (f : List α → Bool) : Nat → Nat → List α → Bool
  | 0, 0, l => l.isEmpty
  | _ + 1, 0, _ => false
  | lo, hi + 1, l => (lo = 0 && l.isEmpty) || splits f (repeats f (lo - 1) hi) l

def isMatch : Regex α → List α → Bool
  | empty, l => l.isEmpty
  | cls p, l => l.length = 1 && l.all p
  | seq r s, l => splits r.isMatch s.isMatch l
  | alt r s, l => r.isMatch l || s.isMatch l
  | rep r lo hi, l => repeats r.isMatch lo hi l

theorem splits_iff {f g : List α → Bool} {l : List α} : splits f g l ↔ ∃ a b, l = a ++ b ∧ f a ∧ g b := by
  simp only [splits, any_eq_true, mem_range, Bool.and_eq_true]
  constructor
  case mp => exact fun ⟨i, _, hf, hg⟩ => ⟨_, _, (take_append_drop i l).symm, hf, hg⟩
  case mpr =>
    intro ⟨a, b, hl, hf, hg⟩
    subst hl
    exact ⟨a.length, by rw [length_append]; omega, by simpa using hf, by simpa using hg⟩

variable {r s : Regex α} {l : List α}

theorem isMatch_empty : (empty : Regex α).isMatch l ↔ l = [] := by
  simp [isMatch]

theorem isMatch_seq : (seq r s).isMatch l ↔ ∃ a b, l = a ++ b ∧ r.isMatch a ∧ s.isMatch b :=
  splits_iff

theorem isMatch_alt : (alt r s).isMatch l ↔ r.isMatch l ∨ s.isMatch l := by
  simp [isMatch]

theorem isMatch_opt : (opt r).isMatch l ↔ r.isMatch l ∨ l = [] := by
  rw [opt, isMatch_alt, isMatch_empty]

theorem isMatch_cls {p : α → Bool} : (cls p).isMatch l ↔ ∃ a, l = [a] ∧ p a := by
  constructor
  case mp =>
    intro h
    simp only [isMatch, Bool.and_eq_true, decide_eq_true_eq] at h
    have ⟨a, ha⟩ := length_eq_one_iff.mp h.left
    subst ha
    exact ⟨a, rfl, by simpa using h.right⟩
  case mpr =>
    intro ⟨a, ha, hp⟩
    subst ha
    simp [isMatch, hp]

theorem isMatch_word [DecidableEq α] {w : List α} : (word w).isMatch l ↔ l = w := by
  induction w generalizing l
  case nil => exact isMatch_empty
  case cons a as hi =>
    rw [word, isMatch_seq]
    constructor
    case mp =>
      intro ⟨x, y, hl, hx, hy⟩
      have ⟨b, hb, he⟩ := isMatch_cls.mp hx
      rw [hl, hb, hi.mp hy, of_decide_eq_true he]
      rfl
    case mpr =>
      intro hl
      exact ⟨[a], as, hl, isMatch_cls.mpr ⟨a, rfl, by simp⟩, hi.mpr rfl⟩

theorem isMatch_rep_cls {p : α → Bool} {lo hi : Nat} :
    (rep (cls p) lo hi).isMatch l ↔ lo ≤ l.length ∧ l.length ≤ hi ∧ ∀ a ∈ l, p a := by
  change repeats (cls p).isMatch lo hi l ↔ _
  induction hi generalizing lo l
  case zero =>
    cases lo
    case zero => cases l <;> simp [repeats]
    case succ lo =>
      refine iff_of_false (by simp [repeats]) fun ⟨h₁, h₂, _⟩ => ?_
      omega
  case succ hi ih =>
    rw [repeats, Bool.or_eq_true, splits_iff]
    constructor
    case mp =>
      rintro (h | ⟨x, y, hl, hx, hy⟩)
      · simp only [Bool.and_eq_true, decide_eq_true_eq, List.isEmpty_iff] at h
        simp [h.left, h.right]
      · have ⟨a, ha, hp⟩ := isMatch_cls.mp hx
        have ⟨h₁, h₂, h₃⟩ := ih.mp hy
        subst hl ha
        exact ⟨by simp; omega, by simp; omega, by simpa [hp] using h₃⟩
    case mpr =>
      intro ⟨h₁, h₂, h₃⟩
      cases l
      case nil => exact .inl (by simp at h₁ ⊢; exact h₁)
      case cons a as =>
        have ha := isMatch_cls.mpr ⟨a, rfl, h₃ a List.mem_cons_self⟩
        have hlo : lo - 1 ≤ as.length := by simp at h₁; omega
        have has := ih.mpr ⟨hlo, by simpa using h₂, fun b hb => h₃ b (List.mem_cons_of_mem _ hb)⟩
        exact .inr ⟨[a], as, rfl, ha, has⟩

-- All symbols that an expression knows have a property.
def All (P : α → Prop) : Regex α → Prop
  | empty => True
  | cls p => ∀ a, p a → P a
  | seq r s => r.All P ∧ s.All P
  | alt r s => r.All P ∧ s.All P
  | rep r _ _ => r.All P

variable {P : α → Prop}

theorem all_word [DecidableEq α] {w : List α} (h : ∀ a ∈ w, P a) : (word w).All P := by
  induction w
  case nil => trivial
  case cons a w ih =>
    have ⟨ha, hw⟩ := forall_mem_cons.mp h
    exact ⟨fun b hb => of_decide_eq_true hb ▸ ha, ih hw⟩

theorem forall_of_splits {f g : List α → Bool} (hf : ∀ l, f l → ∀ a ∈ l, P a)
    (hg : ∀ l, g l → ∀ a ∈ l, P a) (h : splits f g l) : ∀ a ∈ l, P a := by
  obtain ⟨x, y, rfl, hx, hy⟩ := splits_iff.mp h
  exact forall_mem_append.mpr ⟨hf x hx, hg y hy⟩

theorem forall_of_repeats {f : List α → Bool} (hf : ∀ l, f l → ∀ a ∈ l, P a) {lo hi : Nat}
    (h : repeats f lo hi l) : ∀ a ∈ l, P a := by
  induction hi generalizing lo l
  case zero => cases lo <;> simp_all [repeats]
  case succ hi ih =>
    rw [repeats, Bool.or_eq_true, Bool.and_eq_true, List.isEmpty_iff] at h
    rcases h with ⟨_, rfl⟩ | h
    · simp
    · exact forall_of_splits hf (fun _ => ih) h

theorem All.of_isMatch (hr : r.All P) (h : r.isMatch l) : ∀ a ∈ l, P a := by
  induction r generalizing l
  case empty => simp [isMatch_empty.mp h]
  case cls p =>
    obtain ⟨a, rfl, ha⟩ := isMatch_cls.mp h
    simpa using hr a ha
  case seq r s ihr ihs => exact forall_of_splits (fun _ => ihr hr.1) (fun _ => ihs hr.2) h
  case alt r s ihr ihs => exact (isMatch_alt.mp h).elim (ihr hr.1) (ihs hr.2)
  case rep r lo hi ih => exact forall_of_repeats (fun _ => ih hr) h

end Regex
