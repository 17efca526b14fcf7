import SoildTunnel.Rust.Lossy

-- Where a pattern is found in a text.
namespace Rust

section Ascii

variable {c : Char}

theorem isAlphanum_bounds (h : c.isAlphanum) :
    48 ≤ c.toNat ∧ c.toNat ≤ 57 ∨ 65 ≤ c.toNat ∧ c.toNat ≤ 90 ∨ 97 ≤ c.toNat ∧ c.toNat ≤ 122 := by
  simp [Char.isAlphanum, Char.isAlpha, Char.isUpper, Char.isLower, Char.isDigit, UInt32.le_iff_toNat_le] at h
  omega

theorem isWhitespace_of_isAlphanum (h : c.isAlphanum) : isWhitespace c.toNat = false := by
  have := isAlphanum_bounds h
  simp only [isWhitespace, Bool.or_eq_false_iff, Bool.and_eq_false_iff, decide_eq_false_iff_not]
  omega

theorem isAlphanum_of_toLower (h : c.toLower.isAlphanum) : c.isAlphanum := by
  by_cases hu : c.isUpper
  case pos => simp [Char.isAlphanum, Char.isAlpha, hu]
  case neg => rwa [Char.toLower_eq_of_not_isUpper hu] at h

theorem isAlphanum_of_isDigit (h : c.isDigit) : c.isAlphanum := by
  simp [Char.isAlphanum, h]

end Ascii

section Digits

variable (n : Nat)

theorem isDigit_of_mem_toDigits {c : Char} (h : c ∈ Nat.toDigits 10 n) : c.isDigit :=
  Nat.isDigit_of_mem_toDigits (by decide) (by decide) h

theorem toDigits_ne_nil : Nat.toDigits 10 n ≠ [] :=
  List.ne_nil_of_length_pos Nat.length_toDigits_pos

theorem Text.decimal_toDigits : Text.decimal (Nat.toDigits 10 n) = some n := by
  have ha : (Nat.toDigits 10 n).all Char.isDigit := List.all_eq_true.mpr fun _ => isDigit_of_mem_toDigits n
  have hv : Nat.ofDigitChars 10 (Nat.toDigits 10 n) 0 = n := Nat.ofDigitChars_toDigits (by decide) (by decide)
  rw [Text.decimal, if_pos ⟨toDigits_ne_nil n, ha⟩]
  conv_rhs => rw [← hv, Nat.ofDigitChars]
  simp only [Nat.mul_comm 10]
  rfl

variable {n} in
theorem Text.parseU16_toDigits (h : n < 2 ^ 16) : Text.parseU16 (Nat.toDigits 10 n) = some (.ofNat n) := by
  unfold Text.parseU16
  split
  case h_1 ds he => cases isDigit_of_mem_toDigits n (he ▸ List.mem_cons_self)
  case h_2 =>
    dsimp only
    rw [decimal_toDigits, Option.bind_some, if_pos h]

end Digits

end Rust

namespace Rust.Text

open List Option Delimited

variable {pat t a b : Text}

theorem splitOnce_eq_some (h : splitOnce pat t = some (a, b)) : t = a ++ pat ++ b := by
  induction t generalizing a
  case nil =>
    rw [splitOnce] at h
    split at h
    case isTrue hp => cases h; rw [isEmpty_iff.mp hp]; rfl
    case isFalse => cases h
  case cons c t ih =>
    rw [splitOnce] at h
    split at h
    case isTrue hp =>
      cases h
      rw [nil_append]
      exact (prefix_iff_eq_append.mp (List.isPrefixOf_iff_prefix.mp hp)).symm
    case isFalse =>
      obtain ⟨⟨a', b'⟩, hs, he⟩ := map_eq_some_iff.mp h
      cases he
      rw [ih hs, cons_append, cons_append]

theorem splitOnce_of_not_mem {c : Char} {p : Text} (h : c ∉ a) : splitOnce (c :: p) (a ++ c :: (p ++ b)) = some (a, b) := by
  induction a
  case nil => simp [splitOnce]
  case cons d a ih =>
    obtain ⟨hd, ha⟩ : c ≠ d ∧ c ∉ a := by simpa using h
    simp [splitOnce, hd, ih ha]

theorem splitOnce_eq_none {c : Char} (hc : c ∈ pat) (h : c ∉ t) : splitOnce pat t = none := by
  induction t
  case nil =>
    have hp : pat ≠ [] := ne_nil_of_mem hc
    simp [splitOnce, hp]
  case cons d ds hi =>
    have hp : pat.isPrefixOf (d :: ds) = false := by
      by_contra hn
      have hsub := isPrefixOf_iff_prefix.mp (Bool.not_eq_false _ ▸ hn)
      exact h (hsub.subset hc)
    rw [splitOnce, hp, hi (not_mem_of_not_mem_cons h)]
    rfl

theorem stripPrefix_eq_some {r : Text} : stripPrefix pat t = some r ↔ t = pat ++ r := by
  unfold stripPrefix
  constructor
  case mp =>
    intro h
    obtain ⟨hp, h⟩ := ite_none_right_eq_some.mp h
    obtain ⟨s, rfl⟩ := isPrefixOf_iff_prefix.mp hp
    rw [drop_left] at h
    rw [some_inj.mp h]
  case mpr =>
    rintro rfl
    rw [if_pos (List.isPrefixOf_iff_prefix.mpr (prefix_append pat r)), drop_left]

theorem stripSuffix_eq_some {r : Text} : stripSuffix pat t = some r ↔ t = r ++ pat := by
  unfold stripSuffix
  constructor
  case mp =>
    intro h
    obtain ⟨hp, h⟩ := ite_none_right_eq_some.mp h
    obtain ⟨s, rfl⟩ := isSuffixOf_iff_suffix.mp hp
    rw [length_append, Nat.add_sub_cancel, take_left] at h
    rw [some_inj.mp h]
  case mpr =>
    rintro rfl
    rw [if_pos (isSuffixOf_iff_suffix.mpr (suffix_append r pat)), length_append, Nat.add_sub_cancel, take_left]

theorem trimEndMatches_eq_self {c : Char} {t : Text} (h : c ∉ t) : trimEndMatches c t = t := by
  rw [trimEndMatches, rdropWhile_eq_self_iff]
  intro hl he
  exact h (of_decide_eq_true he ▸ getLast_mem hl)

theorem splitOnce_append (h : splitOnce pat t = some (a, b)) (u : Text) : splitOnce pat (t ++ u) = some (a, b ++ u) := by
  induction t generalizing a
  case nil =>
    rw [splitOnce] at h
    split at h
    case isTrue hp =>
      cases h
      rw [isEmpty_iff.mp hp, nil_append]
      cases u <;> rfl
    case isFalse => cases h
  case cons c t ih =>
    rw [splitOnce] at h
    rw [cons_append, splitOnce]
    split at h
    case isTrue hp =>
      cases h
      have hp := isPrefixOf_iff_prefix.mp hp
      have hp' : pat <+: c :: (t ++ u) := hp.trans (prefix_append (c :: t) u)
      rw [if_pos (List.isPrefixOf_iff_prefix.mpr hp'), ← cons_append, drop_append_of_le_length hp.length_le]
    case isFalse hp =>
      obtain ⟨⟨a', b'⟩, hs, he⟩ := map_eq_some_iff.mp h
      cases he
      have hl : pat.length ≤ (c :: t).length := by
        rw [splitOnce_eq_some hs]
        simp only [length_cons, length_append]
        omega
      have hp' : ¬ pat.isPrefixOf (c :: (t ++ u)) := by
        rw [List.isPrefixOf_iff_prefix, ← cons_append]
        intro hp'
        exact hp (List.isPrefixOf_iff_prefix.mpr (prefix_of_prefix_length_le hp' (prefix_append _ u) hl))
      rw [if_neg hp', ih hs]
      rfl

theorem splitOnce_isSome (pat a b : Text) : (splitOnce pat (a ++ pat ++ b)).isSome := by
  induction a
  case nil =>
    rw [nil_append]
    cases h : pat ++ b
    case nil =>
      rw [splitOnce, (append_eq_nil_iff.mp h).1]
      rfl
    case cons c t =>
      rw [splitOnce, if_pos]
      · rfl
      · rw [← h, isPrefixOf_iff_prefix]
        exact prefix_append _ _
  case cons c a ih =>
    rw [cons_append, cons_append, splitOnce]
    split
    case isTrue => rfl
    case isFalse => rwa [isSome_map]

-- Such a line may have both characters in it, if the one does not follow the other.
theorem splitOnce_crlf_of_no_pair (h : ¬ ['\r', '\n'] <:+: a) :
    splitOnce ['\r', '\n'] (a ++ '\r' :: '\n' :: b) = some (a, b) := by
  induction a
  case nil => rfl
  case cons c a ih =>
    have hp : ¬ List.isPrefixOf ['\r', '\n'] (c :: (a ++ '\r' :: '\n' :: b)) := by
      rw [List.isPrefixOf_iff_prefix, cons_prefix_cons]
      rintro ⟨rfl, hp⟩
      cases a
      case nil => exact absurd (cons_prefix_cons.mp hp).1 (by decide)
      case cons d a =>
        obtain ⟨rfl, _⟩ := cons_prefix_cons.mp hp
        exact h (prefix_append _ a).isInfix
    rw [cons_append, splitOnce, if_neg hp, ih fun hi => h (hi.trans (suffix_cons c a).isInfix)]
    rfl

theorem splitOnce_crlf (h : '\n' ∉ a) : splitOnce ['\r', '\n'] (a ++ '\r' :: '\n' :: b) = some (a, b) :=
  splitOnce_crlf_of_no_pair fun hi => h (hi.subset (by simp))

theorem splitOnce_lf {x y : Text} (hx : '\n' ∉ x) (hl : x.getLast? ≠ some '\r')
    (h : splitOnce ['\r', '\n'] (x ++ '\n' :: y) = some (a, b)) : ∃ z, y = z ++ ['\r', '\n'] ++ b := by
  have he := splitOnce_eq_some h
  by_cases ha : '\n' ∈ a
  case pos =>
    obtain ⟨a₁, a₂, rfl, ha₁⟩ := eq_append_cons_of_mem ha
    have hc := cut_append (b := y) hx
    rw [he, append_assoc, append_assoc, cons_append, cut_append ha₁] at hc
    cases hc
    exact ⟨a₂, by rw [append_assoc]⟩
  case neg =>
    have ha' : '\n' ∉ a ++ ['\r'] := by simpa using ha
    have hc := cut_append (b := y) hx
    have hs : a ++ ['\r', '\n'] ++ b = (a ++ ['\r']) ++ '\n' :: b := by simp
    rw [he, hs, cut_append ha'] at hc
    cases hc
    exact absurd List.getLast?_concat hl

theorem splitOnce_append_of_none {s : Text} (ht : splitOnce ['\r', '\n'] t = none)
    (h : splitOnce ['\r', '\n'] (t ++ s) = some (a, b)) : t <+: a ∨ t = a ++ ['\r'] := by
  have he := splitOnce_eq_some h
  rw [append_assoc] at he
  rcases append_eq_append_iff.mp he with ⟨z, hz, _⟩ | ⟨z, hz, hs⟩
  · exact .inl ⟨z, hz.symm⟩
  · rcases z with _ | ⟨c, _ | ⟨d, z⟩⟩
    · exact .inl (by rw [hz, append_nil])
    · cases hs
      exact .inr hz
    · cases hs
      have := splitOnce_isSome ['\r', '\n'] a z
      rw [append_assoc, cons_append, singleton_append, ← hz, ht] at this
      cases this

theorem splitCrlf_eq (t : Text) :
    splitCrlf t = (splitOnce ['\r', '\n'] t).elim [t] fun (a, b) => a :: splitCrlf b := by
  induction t using splitCrlf.induct
  case case1 => rfl
  case case2 t ih => rfl
  case case3 c t hp hn ih =>
    rw [hn] at ih
    cases h : splitOnce ['\r', '\n'] t <;> simp [h] at ih
  case case4 c t hp line lines hl ih =>
    have hp' : ¬ List.isPrefixOf ['\r', '\n'] (c :: t) := by
      rw [List.isPrefixOf_iff_prefix, cons_prefix_cons]
      rintro ⟨hc, hp'⟩
      obtain ⟨t', rfl⟩ := hp'
      exact hp t' hc.symm rfl
    rw [splitCrlf, hl, splitOnce, if_neg hp']
    · rw [hl] at ih
      cases h : splitOnce ['\r', '\n'] t
      case none =>
        rw [h] at ih
        cases ih
        rfl
      case some x =>
        rw [h] at ih
        cases ih
        rfl
    · exact hp

theorem lines_induction {P : Text → Prop} (last : ∀ t, splitOnce ['\r', '\n'] t = none → P t)
    (next : ∀ t a b, splitOnce ['\r', '\n'] t = some (a, b) → P b → P t) (t : Text) : P t := by
  induction h : t.length using Nat.strong_induction_on generalizing t
  case h n ih =>
    cases hs : splitOnce ['\r', '\n'] t
    case none => exact last t hs
    case some x =>
      have hl := congrArg List.length (splitOnce_eq_some hs)
      simp only [length_append, length_cons, length_nil] at hl
      exact next t x.1 x.2 hs (ih _ (by omega) _ rfl)

theorem Continued.splitOnce {s w : Text} (hc : Continued t s w) (h : Text.splitOnce ['\r', '\n'] t = some (a, b)) :
    ∃ b', Text.splitOnce ['\r', '\n'] w = some (a, b') ∧ Continued b s b' := by
  rcases hc with rfl | ⟨t', u, rfl, rfl⟩
  · exact ⟨b ++ s, splitOnce_append h s, .inl rfl⟩
  · cases ht : Text.splitOnce ['\r', '\n'] t'
    case some x =>
      cases (splitOnce_append ht [replacement]).symm.trans h
      exact ⟨x.2 ++ u, splitOnce_append ht u, .inr ⟨x.2, u, rfl, rfl⟩⟩
    case none =>
      have he := splitOnce_eq_some h
      rcases eq_nil_or_concat b with rfl | ⟨b', c, rfl⟩
      · have := congrArg List.getLast? he
        simp at this
        exact absurd this (by decide)
      · rw [concat_eq_append, ← append_assoc] at he
        obtain ⟨rfl, _⟩ := append_inj' he rfl
        cases ht.symm ▸ splitOnce_isSome ['\r', '\n'] a b'

-- Line ends are found at the same places in the bytes and in the text.
section Bytes

variable {x : List UInt8}

theorem fromUtf8Lossy_lf (x tail : List UInt8) :
    fromUtf8Lossy (x ++ 10 :: tail) = fromUtf8Lossy x ++ '\n' :: fromUtf8Lossy tail :=
  fromUtf8Lossy_append_ascii (by decide) x tail

theorem fromUtf8Lossy_crlf (x tail : List UInt8) :
    fromUtf8Lossy (x ++ 13 :: 10 :: tail) = fromUtf8Lossy x ++ '\r' :: '\n' :: fromUtf8Lossy tail := by
  have hb : (10 : UInt8) < 0x80 := by decide
  have hl : fromUtf8Lossy (10 :: tail) = '\n' :: fromUtf8Lossy tail := by
    rw [fromUtf8Lossy, if_pos hb]
    rfl
  rw [fromUtf8Lossy_append_ascii (by decide), hl]
  rfl

theorem lf_not_mem_fromUtf8Lossy (hx : 10 ∉ x) : '\n' ∉ fromUtf8Lossy x :=
  fun h => hx (mem_of_mem_fromUtf8Lossy (by decide) h)

theorem splitOnce_crlf_isSome (x tail : List UInt8) :
    (splitOnce ['\r', '\n'] (fromUtf8Lossy (x ++ 13 :: 10 :: tail))).isSome := by
  have hs := splitOnce_isSome ['\r', '\n'] (fromUtf8Lossy x) (fromUtf8Lossy tail)
  rw [append_assoc] at hs
  rwa [fromUtf8Lossy_crlf]

end Bytes

end Rust.Text
