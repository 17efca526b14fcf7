import SoildTunnel.Rust.Lossy

-- Parts of a text by byte positions. A position that is not between two characters makes the code panic.
namespace Rust.Text

open List Nat Option

def splitAt (n : Nat) : Text → Option (Text × Text)
  | [] => if n = 0 then some ([], []) else none
  | c :: t =>
    if n = 0 then some ([], c :: t)
    else if (String.utf8EncodeChar c).length ≤ n then
      (splitAt (n - (String.utf8EncodeChar c).length) t).map fun (a, b) => (c :: a, b)
    else none

-- `&t[lo..hi]` and `&t[lo..]`.
def slice (lo hi : Nat) (t : Text) : Option Text :=
  (splitAt hi t).bind fun (a, _) => (splitAt lo a).map Prod.snd

def sliceFrom (lo : Nat) (t : Text) : Option Text :=
  (splitAt lo t).map Prod.snd

variable {n : Nat} {t a b : Text}

theorem utf8_nil : utf8 [] = [] := rfl

theorem length_utf8EncodeChar_pos (c : Char) : 0 < (String.utf8EncodeChar c).length := by
  rw [String.length_utf8EncodeChar]
  exact c.utf8Size_pos

theorem length_utf8_of_ascii (h : ∀ c ∈ t, c.toNat < 128) : t.utf8.length = t.length := by
  induction t
  case nil => rfl
  case cons c t ih =>
    have hc : (String.utf8EncodeChar c).length = 1 := by
      have hc := h c mem_cons_self
      have he := utf8EncodeChar_ascii (b := .ofNat c.toNat) (single_lt hc)
      rw [toNat_ofNat_of_lt (by omega), Char.ofNat_toNat] at he
      rw [he]
      rfl
    rw [utf8_cons, length_append, hc, ih fun d hd => h d (mem_cons_of_mem c hd), length_cons, add_comm]

theorem utf8_eq_nil_iff : t.utf8 = [] ↔ t = [] := by
  constructor
  case mp =>
    intro h
    cases t
    case nil => rfl
    case cons c t =>
      have hc := length_utf8EncodeChar_pos c
      have hl := congrArg List.length h
      rw [utf8_cons, length_append, length_nil] at hl
      omega
  case mpr =>
    rintro rfl
    rfl

theorem splitAt_eq_some_iff : splitAt n t = some (a, b) ↔ t = a ++ b ∧ a.utf8.length = n := by
  induction t generalizing n a
  case nil =>
    rw [splitAt, ite_none_right_eq_some]
    constructor
    case mp =>
      rintro ⟨rfl, he⟩
      cases he
      exact ⟨rfl, rfl⟩
    case mpr =>
      rintro ⟨he, rfl⟩
      obtain ⟨rfl, rfl⟩ := append_eq_nil_iff.mp he.symm
      exact ⟨rfl, rfl⟩
  case cons c t ih =>
    have hc := length_utf8EncodeChar_pos c
    rw [splitAt]
    constructor
    case mp =>
      intro h
      split at h
      case isTrue hn =>
        cases h
        exact ⟨rfl, hn.symm⟩
      case isFalse hn =>
        obtain ⟨hl, h⟩ := ite_none_right_eq_some.mp h
        obtain ⟨⟨a', b'⟩, hs, he⟩ := map_eq_some_iff.mp h
        cases he
        obtain ⟨rfl, hl'⟩ := ih.mp hs
        refine ⟨rfl, ?_⟩
        rw [utf8_cons, length_append]
        omega
    case mpr =>
      rintro ⟨he, rfl⟩
      cases a
      case nil =>
        rw [nil_append] at he
        rw [utf8_nil, length_nil, if_pos rfl, he]
      case cons d a =>
        rw [cons_append] at he
        obtain ⟨rfl, rfl⟩ := List.cons.inj he
        have hs : splitAt (utf8 a).length (a ++ b) = some (a, b) := ih.mpr ⟨rfl, rfl⟩
        have hl : (utf8 (c :: a)).length = (String.utf8EncodeChar c).length + (utf8 a).length := by
          rw [utf8_cons, length_append]
        rw [hl, if_neg (by omega), if_pos (Nat.le_add_right _ _), Nat.add_sub_cancel_left, hs]
        rfl

theorem splitAt_left (a b : Text) : splitAt a.utf8.length (a ++ b) = some (a, b) :=
  splitAt_eq_some_iff.mpr ⟨rfl, rfl⟩

-- The positions between two characters.
def Boundary (t : Text) (n : Nat) : Prop :=
  ∃ a b, t = a ++ b ∧ a.utf8.length = n

theorem splitAt_isSome_iff : (splitAt n t).isSome ↔ Boundary t n := by
  rw [isSome_iff_exists]
  constructor
  case mp =>
    rintro ⟨⟨a, b⟩, h⟩
    exact ⟨a, b, splitAt_eq_some_iff.mp h⟩
  case mpr =>
    rintro ⟨a, b, h⟩
    exact ⟨(a, b), splitAt_eq_some_iff.mpr h⟩

theorem Boundary.le (h : Boundary t n) : n ≤ t.utf8.length := by
  obtain ⟨a, b, rfl, rfl⟩ := h
  rw [utf8_append, length_append]
  omega

theorem sliceFrom_append (x r : Text) : sliceFrom x.utf8.length (x ++ r) = some r := by
  rw [sliceFrom, splitAt_left, map_some]

theorem slice_append (x y r : Text) : slice x.utf8.length (x.utf8.length + y.utf8.length) (x ++ (y ++ r)) = some y := by
  rw [slice, ← length_append, ← utf8_append, ← append_assoc, splitAt_left, bind_some]
  dsimp only
  rw [splitAt_left, map_some]

theorem boundary_append_iff {x r : Text} : Boundary (x ++ r) (x.utf8.length + n) ↔ Boundary r n := by
  constructor
  case mp =>
    rintro ⟨a, b, he, hl⟩
    rcases append_eq_append_iff.mp he with ⟨z, rfl, rfl⟩ | ⟨z, rfl, rfl⟩
    · rw [utf8_append, length_append] at hl
      exact ⟨z, b, rfl, by omega⟩
    · rw [utf8_append, length_append] at hl
      exact ⟨[], r, rfl, by rw [utf8_nil, length_nil]; omega⟩
  case mpr =>
    rintro ⟨a, b, rfl, rfl⟩
    exact ⟨x ++ a, b, by rw [append_assoc], by rw [utf8_append, length_append]⟩

theorem slice_right (x r : Text) : slice x.utf8.length (x.utf8.length + n) (x ++ r) = (splitAt n r).map Prod.fst := by
  cases h : splitAt n r
  case some p =>
    obtain ⟨rfl, rfl⟩ := splitAt_eq_some_iff.mp (show splitAt n r = some (p.1, p.2) from h)
    exact slice_append x p.1 p.2
  case none =>
    have hn : splitAt (x.utf8.length + n) (x ++ r) = none := by
      rw [← not_isSome_iff_eq_none, splitAt_isSome_iff, boundary_append_iff, ← splitAt_isSome_iff, h]
      decide
    rw [slice, hn]
    rfl

theorem splitAt_within {c : Char} {w : Text} {k : Nat} (h : splitAt (t.utf8.length + k) (t ++ c :: w) = some (a, b))
    (hp : 0 < k) (hk : k ≤ (String.utf8EncodeChar c).length) : k = (String.utf8EncodeChar c).length ∧ a = t ++ [c] := by
  obtain ⟨he, hl⟩ := splitAt_eq_some_iff.mp h
  rcases append_eq_append_iff.mp he with ⟨z, rfl, hz⟩ | ⟨z, rfl, _⟩
  · rw [utf8_append, length_append, add_left_cancel_iff] at hl
    cases z
    case nil => exact absurd hl (Nat.ne_of_lt hp)
    case cons d z =>
      rw [cons_append] at hz
      obtain ⟨rfl, _⟩ := List.cons.inj hz
      rw [utf8_cons, length_append] at hl
      have hn : utf8 z = [] := eq_nil_of_length_eq_zero (by omega)
      rw [utf8_eq_nil_iff.mp hn]
      rw [hn, length_nil] at hl
      exact ⟨hl.symm, rfl⟩
  · rw [utf8_append, length_append] at hl
    omega

section Parts

theorem fromUtf8Lossy_utf8_append (t : Text) (r : List UInt8) : fromUtf8Lossy (t.utf8 ++ r) = t ++ fromUtf8Lossy r := by
  induction t
  case nil => rfl
  case cons c t ih =>
    rw [utf8_cons, append_assoc, fromUtf8Lossy_append (encoded_utf8EncodeChar c), ih, cons_append]

theorem continuation_part {lo hi : UInt8} {v : Nat} {vs : List Nat} (h : lo ≤ follow v ∧ follow v ≤ hi) {q q' : List UInt8}
    (he : (v :: vs).map follow = q ++ q') (hq' : q' ≠ []) : continuation (vs.length + 2) lo hi q = q.length := by
  cases q
  case nil => rfl
  case cons y q =>
    rw [map_cons, cons_append] at he
    obtain ⟨rfl, hr⟩ := List.cons.inj he
    have ht : (q.takeWhile fun y => 0x80 ≤ y ∧ y ≤ 0xbf) = q := by
      refine takeWhile_eq_self_iff.mpr fun y hy => ?_
      have hm : y ∈ vs.map follow := by
        rw [hr]
        exact mem_append_left q' hy
      obtain ⟨u, _, rfl⟩ := mem_map.mp hm
      exact decide_eq_true (follow_continues u)
    have hl := congrArg List.length hr
    have hp := length_pos_of_ne_nil hq'
    rw [length_map, length_append] at hl
    rw [continuation, if_pos h, ht, length_cons]
    omega

theorem fromUtf8Lossy_part {c : Char} {q q' : List UInt8} (he : String.utf8EncodeChar c = q ++ q') (hq : q ≠ [])
    (hq' : q' ≠ []) : fromUtf8Lossy q = [replacement] := by
  have h := encoded_utf8EncodeChar c
  generalize String.utf8EncodeChar c = bytes at he h
  obtain ⟨b, q, rfl⟩ := exists_cons_of_ne_nil hq
  cases h
  case single h =>
    obtain ⟨_, he⟩ := List.cons.inj he
    exact absurd (append_eq_nil_iff.mp he.symm).2 hq'
  case several b lo hi v vs hh hs h₂ hv =>
    rw [cons_append] at he
    obtain ⟨rfl, hr⟩ := List.cons.inj he
    have hc := continuation_part h₂ hr hq'
    have hl := congrArg List.length hr
    have hp := length_pos_of_ne_nil hq'
    rw [length_append, length_cons, length_map] at hl
    rw [fromUtf8Lossy, if_neg (UInt8.not_lt.mpr hh), hs]
    dsimp only
    rw [hc, if_neg (by omega), drop_length, fromUtf8Lossy]

theorem utf8_eq_append {t : Text} {x y : List UInt8} (h : t.utf8 = x ++ y) :
    (∃ a b : Text, t = a ++ b ∧ x = a.utf8 ∧ y = b.utf8) ∨
      ∃ (a : Text) (c : Char) (b : Text) (q q' : List UInt8), t = a ++ c :: b ∧ x = a.utf8 ++ q ∧ String.utf8EncodeChar c = q ++ q' ∧ q ≠ [] ∧ q' ≠ [] := by
  induction t generalizing x
  case nil =>
    obtain ⟨rfl, rfl⟩ := append_eq_nil_iff.mp h.symm
    exact .inl ⟨[], [], rfl, rfl, rfl⟩
  case cons c t ih =>
    rw [utf8_cons] at h
    rcases append_eq_append_iff.mp h with ⟨z, rfl, ht⟩ | ⟨z, hc, rfl⟩
    · rcases ih ht with ⟨a, b, rfl, rfl, rfl⟩ | ⟨a, d, b, q, q', rfl, rfl, he, hq, hq'⟩
      · exact .inl ⟨c :: a, b, rfl, by rw [utf8_cons], rfl⟩
      · exact .inr ⟨c :: a, d, b, q, q', rfl, by rw [utf8_cons, append_assoc], he, hq, hq'⟩
    · by_cases hx : x = []
      case pos => exact .inl ⟨[], c :: t, rfl, hx, by rw [utf8_cons, hc, hx, nil_append]⟩
      case neg =>
        by_cases hz : z = []
        case pos =>
          rw [hz, append_nil] at hc
          exact .inl ⟨[c], t, rfl, by rw [utf8_cons, utf8_nil, append_nil, hc], by rw [hz, nil_append]⟩
        case neg => exact .inr ⟨[], c, t, x, z, rfl, rfl, hc, hx, hz⟩

-- A byte that is replaced takes three.
theorem length_utf8_fromUtf8Lossy_le (x : List UInt8) : (fromUtf8Lossy x).utf8.length ≤ 3 * x.length := by
  have hc (c : Char) : (String.utf8EncodeChar c).length ≤ 4 := by
    rw [String.length_utf8EncodeChar]
    exact c.utf8Size_le_four
  induction x using fromUtf8Lossy.induct
  case case1 => rw [fromUtf8Lossy, utf8_nil]; exact zero_le _
  case case2 b r hb ih =>
    rw [fromUtf8Lossy, if_pos hb, utf8_cons, utf8EncodeChar_ascii hb]
    simp only [length_append, length_cons, length_nil]
    omega
  case case3 b r hb hs ih =>
    have hr : (String.utf8EncodeChar replacement).length = 3 := rfl
    rw [fromUtf8Lossy, if_neg hb, hs]
    dsimp only
    rw [utf8_cons, length_append, hr, length_cons]
    omega
  case case4 b r hb len lo hi hs n ih =>
    obtain ⟨h₂, _⟩ := sequence_bounds b _ hs
    have hn : n ≤ r.length := continuation_le len lo hi r
    have hv (v : Nat) : (String.utf8EncodeChar (Char.ofNat (if n + 1 = len then v else 0xfffd))).length ≤ 3 * (n + 1) := by
      split
      case isTrue he => exact le_trans (hc _) (by omega)
      case isFalse => exact mul_le_mul_left 3 (le_add_left 1 n)
    rw [length_drop] at ih
    rw [fromUtf8Lossy, if_neg hb, hs]
    dsimp only
    rw [utf8_cons, length_append, length_cons]
    refine Nat.le_trans (Nat.add_le_add (hv _) ih) ?_
    omega

end Parts

end Rust.Text
