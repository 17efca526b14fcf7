import Mathlib

-- Texts over an arbitrary alphabet that are cut at separators: splitting at the first or last
-- separator, splitting into lines, trimming, and the escaping of one symbol by a pair of symbols.

namespace Delimited

open List

variable {α : Type _} {l x l' : List α}

section Trim

variable (p : α → Bool)

def trim (l : List α) : List α :=
  (l.dropWhile p).rdropWhile p

theorem trim_isInfix (l : List α) : trim p l <:+: l :=
  (List.rdropWhile_prefix p (l.dropWhile p)).isInfix.trans (dropWhile_suffix p).isInfix

variable {p}

theorem dropWhile_eq_self_of_prefix (h : l' <+: l) (hd : l.dropWhile p = l) : l'.dropWhile p = l' := by
  cases l'
  case nil => rfl
  case cons a as =>
    obtain ⟨t, rfl⟩ := h
    have ha : ¬p a := by
      intro hp
      have hlen := congrArg List.length hd
      have := (as ++ t).length_dropWhile_le p
      simp [hp] at hlen this
      omega
    simp [ha]

theorem trim_trim (l : List α) : trim p (trim p l) = trim p l := by
  have hd : (trim p l).dropWhile p = trim p l :=
    dropWhile_eq_self_of_prefix (List.rdropWhile_prefix p _) (dropWhile_idempotent p _)
  unfold trim at hd ⊢
  rw [hd, rdropWhile_idempotent]

theorem trim_eq_self_of_ends (hh : ∀ a ∈ l.head?, p a = false) (hl : ∀ a ∈ l.getLast?, p a = false) :
    trim p l = l := by
  have hd : l.dropWhile p = l :=
    dropWhile_eq_self_iff.mpr fun h => by simp [hh l[0] (List.head?_eq_getElem? ▸ List.getElem?_eq_getElem h)]
  rw [trim, hd, rdropWhile_eq_self_iff]
  exact fun h => by simp [hl _ (List.getLast?_eq_some_getLast h)]

theorem trim_eq_self (h : ∀ a ∈ l, p a = false) : trim p l = l :=
  trim_eq_self_of_ends (fun a ha => h a (mem_of_mem_head? ha)) fun a ha => h a (mem_of_mem_getLast? ha)

theorem trim_cons_of_pos {a : α} (h : p a) : trim p (a :: l) = trim p l := by
  simp [trim, h]

theorem trim_concat_of_pos {a : α} (h : p a) : trim p (l ++ [a]) = trim p l := by
  unfold trim
  by_cases hl : l.dropWhile p = []
  case pos => simp [dropWhile_append, hl, h]
  case neg => simp [dropWhile_append, hl, rdropWhile_concat_pos _ _ _ h]

theorem trim_eq_nil_iff : trim p l = [] ↔ ∀ a ∈ l, p a := by
  rw [trim, rdropWhile_eq_nil_iff]
  constructor
  case mp =>
    intro h
    by_contra hn
    have hd : l.dropWhile p ≠ [] := fun hd => hn (dropWhile_eq_nil_iff.mp hd)
    have hf : ¬ p ((l.dropWhile p).head hd) := by simpa using head_dropWhile_not p hd
    exact hf (h _ (head_mem hd))
  case mpr => exact fun h a ha => h a ((dropWhile_suffix p).mem ha)

theorem rdropWhile_append_of_forall (h : ∀ a ∈ x, p a) : (l ++ x).rdropWhile p = l.rdropWhile p := by
  have hx : ∀ a ∈ x.reverse, p a := fun a ha => h a (mem_reverse.mp ha)
  rw [List.rdropWhile, reverse_append, dropWhile_append_of_pos hx, List.rdropWhile]

theorem rdropWhile_append (h : ∀ a ∈ x, p a) : (l.rdropWhile p ++ x).rdropWhile p = l.rdropWhile p := by
  rw [rdropWhile_append_of_forall h, rdropWhile_idempotent]

theorem rtakeWhile_append (h : ∀ a ∈ x, p a) : (l.rdropWhile p ++ x).rtakeWhile p = x := by
  have hx : ∀ a ∈ x.reverse, p a := fun a ha => h a (mem_reverse.mp ha)
  have hl : (l.reverse.dropWhile p).takeWhile p = [] :=
    takeWhile_eq_nil_iff.mpr fun hn => by simpa using dropWhile_get_zero_not p l.reverse hn
  simp [List.rtakeWhile, List.rdropWhile, takeWhile_append_of_pos hx, hl]

theorem rdropWhile_append_rtakeWhile (l : List α) : l.rdropWhile p ++ l.rtakeWhile p = l := by
  rw [List.rdropWhile, List.rtakeWhile, ← reverse_append, takeWhile_append_dropWhile, reverse_reverse]

end Trim

section Split

variable {sep : α} {l : List α}

theorem mem_splitOnP {p : α → Bool} (h : x ∈ l.splitOnP p) : ∀ c ∈ x, p c = false ∧ c ∈ l := by
  induction l generalizing x
  case nil => simp_all
  case cons d ds hi =>
    rw [splitOnP_cons_eq_if_modifyHead] at h
    split at h
    case isTrue =>
      cases mem_cons.mp h
      case inl h => simp [h]
      case inr h => exact fun c hc => ⟨(hi h c hc).left, mem_cons_of_mem _ (hi h c hc).right⟩
    case isFalse hd =>
      cases hs : ds.splitOnP p
      case nil => exact absurd hs (splitOnP_ne_nil p ds)
      case cons y ys =>
        simp only [hs, modifyHead_cons, mem_cons] at h
        cases h
        case inr h =>
          have hi := hi (hs ▸ mem_cons_of_mem _ h)
          exact fun c hc => ⟨(hi c hc).left, mem_cons_of_mem _ (hi c hc).right⟩
        case inl h =>
          have hi := hi (x := y) (hs ▸ mem_cons_self)
          subst h
          intro c hc
          rcases mem_cons.mp hc with rfl | hc
          · exact ⟨Bool.eq_false_iff.mpr hd, mem_cons_self⟩
          · exact ⟨(hi c hc).left, mem_cons_of_mem _ (hi c hc).right⟩

theorem mem_intercalate {ls : List (List α)} {c : α} (h : c ∈ [sep].intercalate ls) : c = sep ∨ ∃ x ∈ ls, c ∈ x := by
  induction ls
  case nil => cases h
  case cons x ls hi =>
    cases ls
    case nil => exact .inr ⟨x, mem_singleton_self x, by simpa using h⟩
    case cons y ls =>
      rw [intercalate_cons_cons, mem_append, mem_append, mem_singleton] at h
      rcases h with (h | h) | h
      · exact .inr ⟨x, mem_cons_self, h⟩
      · exact .inl h
      · exact (hi h).imp id fun ⟨z, hz, hc⟩ => ⟨z, mem_cons_of_mem x hz, hc⟩

theorem splitOnP_intercalate {p : α → Bool} (hs : p sep) {ls : List (List α)} (hne : ls ≠ [])
    (h : ∀ x ∈ ls, ∀ c ∈ x, p c = false) : ([sep].intercalate ls).splitOnP p = ls := by
  induction ls
  case nil => exact absurd rfl hne
  case cons x ls hi =>
    have hx := h x mem_cons_self
    cases ls
    case nil => simpa using splitOnP_eq_singleton hx
    case cons y ls =>
      have hi := hi (by simp) fun z hz => h z (mem_cons_of_mem x hz)
      rw [intercalate_cons_cons, append_assoc, singleton_append,
        splitOnP_append_cons_of_forall_mem hx sep hs, hi]

end Split

section Cut

variable [DecidableEq α]

-- Splits a text at the first occurrence of the separator, which belongs to neither side.
def cut (sep : α) : List α → Option (List α × List α)
  | []      => none
  | c :: cs => if c = sep then some ([], cs) else (cut sep cs).map fun (a, b) => (c :: a, b)

-- Splits a text at the last occurrence of the separator.
def rcut (sep : α) (l : List α) : Option (List α × List α) :=
  (cut sep l.reverse).map fun (a, b) => (b.reverse, a.reverse)

variable {sep : α} {l a b : List α}

theorem cut_eq_none_iff : cut sep l = none ↔ sep ∉ l := by
  induction l <;> simp [cut]
  case cons c cs hi =>
    by_cases h : c = sep
    case pos => simp [h]
    case neg => simp [h, hi, Ne.symm h]

theorem cut_eq_some_iff : cut sep l = some (a, b) ↔ l = a ++ sep :: b ∧ sep ∉ a := by
  induction l generalizing a
  case nil => simp [cut]
  case cons c cs hi =>
    by_cases h : c = sep <;> simp only [cut, h, if_true, if_false]
    case pos =>
      cases a
      case nil  => simp
      case cons => simp only [Option.some.injEq, Prod.mk.injEq, cons_append, List.cons.injEq,
                     mem_cons, not_or]; grind
    case neg =>
      cases a
      case nil => simp [h]
      case cons d ds =>
        simp only [Option.map_eq_some_iff, Prod.exists, Prod.mk.injEq, List.cons.injEq,
          cons_append, mem_cons, not_or]
        constructor
        case mp =>
          rintro ⟨x, y, hxy, ⟨rfl, rfl⟩, rfl⟩
          have ⟨he, hm⟩ := hi.mp hxy
          exact ⟨⟨rfl, he⟩, Ne.symm h, hm⟩
        case mpr =>
          rintro ⟨⟨rfl, he⟩, _, hm⟩
          exact ⟨ds, b, hi.mpr ⟨he, hm⟩, ⟨rfl, rfl⟩, rfl⟩

theorem cut_append (h : sep ∉ a) : cut sep (a ++ sep :: b) = some (a, b) :=
  cut_eq_some_iff.mpr ⟨rfl, h⟩

theorem rcut_append (h : sep ∉ b) : rcut sep (a ++ sep :: b) = some (a, b) := by
  have hr : (a ++ sep :: b).reverse = b.reverse ++ sep :: a.reverse := by simp
  have hc : cut sep (b.reverse ++ sep :: a.reverse) = some (b.reverse, a.reverse) :=
    cut_append (by simpa using h)
  simp [rcut, hr, hc]

theorem rcut_eq_some (h : rcut sep l = some (a, b)) : l = a ++ sep :: b ∧ sep ∉ b := by
  have ⟨⟨x, y⟩, hc, he⟩ := Option.map_eq_some_iff.mp h
  obtain ⟨rfl, rfl⟩ := Prod.mk.inj he
  have ⟨hl, hx⟩ := cut_eq_some_iff.mp hc
  exact ⟨by simpa using congrArg List.reverse hl, by simpa using hx⟩

theorem rcut_eq_none (h : sep ∉ l) : rcut sep l = none := by
  have hr : cut sep l.reverse = none := cut_eq_none_iff.mpr (by simpa using h)
  simp [rcut, hr]

theorem not_mem_of_rcut (h : rcut sep l = none) : sep ∉ l := by
  simpa using cut_eq_none_iff.mp (Option.map_eq_none_iff.mp h)

theorem mem_splitOn (h : x ∈ l.splitOn sep) : sep ∉ x ∧ ∀ c ∈ x, c ∈ l := by
  have h := mem_splitOnP h
  exact ⟨fun hc => by simpa using (h sep hc).left, fun c hc => (h c hc).right⟩

end Cut

section Lines

-- A text has no line break when neither terminator occurs in it.
def NoBreak (cr lf : α) (l : List α) : Prop :=
  cr ∉ l ∧ lf ∉ l

variable {cr lf : α}

instance [DecidableEq α] {l : List α} : Decidable (NoBreak cr lf l) :=
  inferInstanceAs (Decidable (_ ∧ _))

@[simp]
theorem noBreak_nil : NoBreak cr lf ([] : List α) := by
  simp [NoBreak]

theorem noBreak_cons {c : α} : NoBreak cr lf (c :: l) ↔ (c ≠ cr ∧ c ≠ lf) ∧ NoBreak cr lf l := by
  simp only [NoBreak, mem_cons, not_or]
  grind

theorem NoBreak.of_isInfix (h : NoBreak cr lf l) (hi : l' <:+: l) : NoBreak cr lf l' :=
  ⟨fun hm => h.left <| hi.subset hm, fun hm => h.right <| hi.subset hm⟩

theorem NoBreak.append (h : NoBreak cr lf l) (h' : NoBreak cr lf l') : NoBreak cr lf (l ++ l') := by
  simp only [NoBreak, mem_append, not_or] at *
  exact ⟨⟨h.left, h'.left⟩, h.right, h'.right⟩

variable [DecidableEq α]

-- The flag says that the previous symbol was a `cr`, so that a following `lf` ends no second line.
def linesFrom (cr lf : α) : Bool → List α → List (List α)
  | _,    []      => [[]]
  | skip, c :: cs =>
    if c = lf then
      if skip then linesFrom cr lf false cs else [] :: linesFrom cr lf false cs
    else if c = cr then [] :: linesFrom cr lf true cs
    else (linesFrom cr lf false cs).modifyHead (c :: ·)

-- The lines of a text; `cr lf`, `lf` and `cr` each end one line.
def lines (cr lf : α) : List α → List (List α) :=
  linesFrom cr lf false

theorem linesFrom_noBreak {skip : Bool} (h : x ∈ linesFrom cr lf skip l) : NoBreak cr lf x := by
  induction l generalizing skip x
  case nil => simp_all [linesFrom]
  case cons c cs hi =>
    simp only [linesFrom] at h
    split at h <;> try split at h
    · exact hi h
    · cases mem_cons.mp h
      case inl h => simp [h]
      case inr h => exact hi h
    · cases mem_cons.mp h
      case inl h => simp [h]
      case inr h => exact hi h
    · cases hcs : linesFrom cr lf false cs
      case nil => simp [hcs] at h
      case cons y ys =>
        simp only [hcs, modifyHead_cons, mem_cons] at h
        cases h
        case inl h => exact h ▸ noBreak_cons.mpr ⟨⟨‹_›, ‹_›⟩, hi (hcs ▸ mem_cons_self)⟩
        case inr h => exact hi (hcs ▸ mem_cons_of_mem _ h)

theorem lines_noBreak (h : x ∈ lines cr lf l) : NoBreak cr lf x :=
  linesFrom_noBreak h

theorem lines_append_lf (h : NoBreak cr lf x) : lines cr lf (x ++ lf :: l) = x :: lines cr lf l := by
  induction x
  case nil => simp [lines, linesFrom]
  case cons c cs hi =>
    have ⟨⟨hc, hl⟩, h⟩ := noBreak_cons.mp h
    simp only [lines] at hi ⊢
    simp [linesFrom, hc, hl, hi h]

theorem lines_of_noBreak (h : NoBreak cr lf x) : lines cr lf x = [x] := by
  induction x
  case nil => rfl
  case cons c cs hi =>
    have ⟨⟨hc, hl⟩, h⟩ := noBreak_cons.mp h
    simp only [lines] at hi ⊢
    simp [linesFrom, hc, hl, hi h]

theorem lines_intercalate {xs : List (List α)} (hne : xs ≠ []) (h : ∀ x ∈ xs, NoBreak cr lf x) :
    lines cr lf ([lf].intercalate xs) = xs := by
  induction xs
  case nil => contradiction
  case cons x xs hi =>
    have hx := h x (by simp)
    cases xs
    case nil => simpa [List.intercalate] using lines_of_noBreak hx
    case cons y ys =>
      have hi := hi (by simp) fun z hz => h z (mem_cons_of_mem _ hz)
      simp only [List.intercalate, intersperse_cons_cons, flatten_cons,
        singleton_append] at hi ⊢
      rw [lines_append_lf hx, hi]

end Lines

section Escape

variable [DecidableEq α] (a b c : α)

-- Writes every `c` as the pair `a b`.
def escape (l : List α) : List α :=
  l.flatMap fun x => if x = c then [a, b] else [x]

-- Reads every pair `a b`, from the left and without overlap, as `c`.
def unescape : List α → List α
  | x :: y :: l => if x = a ∧ y = b then c :: unescape l else x :: unescape (y :: l)
  | l           => l

variable {a b c}

theorem mem_escape {x : α} (h : x ∈ escape a b c l) : x = a ∨ x = b ∨ x ∈ l := by
  simp only [escape, mem_flatMap] at h
  have ⟨y, hy, h⟩ := h
  split at h <;> simp at h <;> grind

theorem not_mem_escape (ha : c ≠ a) (hb : c ≠ b) : c ∉ escape a b c l := by
  simp only [escape, mem_flatMap, not_exists, not_and]
  intro y _
  split <;> simp [ha, hb]
  exact fun h => ‹¬y = c› h.symm

theorem mem_unescape {x : α} (h : x ∈ unescape a b c l) : x = c ∨ x ∈ l := by
  induction l using unescape.induct a b <;> simp_all [unescape] <;> grind

theorem unescape_cons_of_not_pair {x : α} (h : ¬[a, b] <+: x :: l) :
    unescape a b c (x :: l) = x :: unescape a b c l := by
  cases l
  case nil => simp [unescape]
  case cons y l =>
    have : ¬(x = a ∧ y = b) := by
      rintro ⟨rfl, rfl⟩
      exact h ⟨l, rfl⟩
    simp [unescape, this]

theorem unescape_escape (hab : a ≠ b) (h : ¬[a, b] <:+: l) : unescape a b c (escape a b c l) = l := by
  induction l
  case nil => rfl
  case cons x l hi =>
    have ⟨hp, ht⟩ := not_or.mp (mt infix_cons_iff.mpr h)
    by_cases hx : x = c
    case pos => simpa [escape, hx, unescape] using hi ht
    case neg =>
      have he : escape a b c (x :: l) = x :: escape a b c l := by simp [escape, hx]
      have hn : ¬[a, b] <+: x :: escape a b c l := by
        intro hq
        have ⟨hxa, hpre⟩ := cons_prefix_cons.mp hq
        cases l
        case nil => simp [escape] at hpre
        case cons y l =>
          by_cases hy : y = c <;> simp only [escape, flatMap_cons, hy, if_true, if_false,
            cons_append, nil_append, cons_prefix_cons] at hpre
          case pos => exact hab hpre.left.symm
          case neg => exact hp (by simp [hxa, hpre.left])
      rw [he, unescape_cons_of_not_pair hn, hi ht]

theorem not_pair_unescape (hca : c ≠ a) (hcb : c ≠ b) : ¬[a, b] <:+: unescape a b c l := by
  induction l using unescape.induct a b
  case case1 x y l h hi =>
    simp only [unescape, h, and_self, if_true, infix_cons_iff, hi, or_false]
    rintro ⟨t, he⟩
    simp only [cons_append, List.cons.injEq] at he
    exact hca he.left.symm
  case case2 x y l h hi =>
    simp only [unescape, h, if_false, infix_cons_iff, hi, or_false]
    rintro ⟨t, he⟩
    simp only [cons_append, nil_append, List.cons.injEq] at he
    obtain ⟨rfl, he⟩ := he
    -- The head of the rest is the head of the text read, or `c`.
    cases l
    case nil =>
      simp only [unescape, List.cons.injEq] at he
      exact h ⟨rfl, he.left.symm⟩
    case cons z l =>
      by_cases hz : y = a ∧ z = b <;> simp only [unescape, hz, and_self, if_true, if_false,
        List.cons.injEq] at he
      case pos => exact hcb he.left.symm
      case neg => exact h ⟨rfl, he.left.symm⟩
  case case3 l hl =>
    unfold unescape
    split
    case h_1 x y l => exact absurd rfl (hl x y l)
    case h_2 =>
      intro h
      have := h.length_le
      match l, hl with
      | [], _ | [_], _ => simp at this
      | x :: y :: l, hl => exact hl x y l rfl

end Escape

end Delimited
