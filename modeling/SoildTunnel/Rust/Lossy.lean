import SoildTunnel.Rust.Utf8

-- How the decodings that never fail treat the parts of a text.
namespace Rust.Text

open List

abbrev replacement : Char := Char.ofNat 0xfffd

section Continuation

variable (len : Nat) (lo hi : UInt8)

theorem continuation_le (a : List UInt8) : continuation len lo hi a ≤ a.length := by
  cases a
  case nil => exact Nat.le_refl 0
  case cons y r =>
    have := (r.takeWhile_prefix fun y => 0x80 ≤ y ∧ y ≤ 0xbf).length_le
    rw [continuation, length_cons]
    split <;> omega

theorem continuation_append (a r : List UInt8) : continuation len lo hi (a ++ r) = continuation len lo hi a ∨
      continuation len lo hi a = a.length ∧ a.length < continuation len lo hi (a ++ r) := by
  cases a
  case nil =>
    rw [nil_append, length_nil, continuation]
    omega
  case cons y a =>
    simp only [cons_append, continuation, length_cons]
    split
    case isFalse => exact .inl rfl
    case isTrue =>
      rw [takeWhile_append]
      split
      case isTrue h =>
        rw [length_append]
        omega
      case isFalse => exact .inl rfl

variable {len} in
theorem continuation_lt (h : 2 ≤ len) (a : List UInt8) : continuation len lo hi a < len := by
  cases a
  case nil => exact Nat.lt_of_lt_of_le Nat.two_pos h
  case cons y r =>
    rw [continuation]
    split <;> omega

variable {lo} in
theorem continuation_ascii {x : UInt8} (hl : 0x80 ≤ lo) (hx : x < 0x80) (a r : List UInt8) :
    continuation len lo hi (a ++ x :: r) = continuation len lo hi a := by
  have hx' : ¬ 0x80 ≤ x := UInt8.not_le.mpr hx
  cases a
  case nil =>
    have : ¬ lo ≤ x := fun h => hx' (UInt8.le_trans hl h)
    simp [continuation, this]
  case cons y a =>
    have hs : (x :: r).takeWhile (fun y => 0x80 ≤ y ∧ y ≤ 0xbf) = [] := takeWhile_cons_of_neg (by simp [hx'])
    rw [cons_append, continuation, continuation, takeWhile_append, hs, append_nil]
    split
    case isFalse => rfl
    case isTrue =>
      split
      case isTrue h => rw [h]
      case isFalse => rfl

end Continuation

theorem sequence_bounds (b : UInt8) : ∀ s, sequence b = some s → 2 ≤ s.1 ∧ s.1 ≤ 4 ∧ 0x80 ≤ s.2.1 := by
  intro s hs
  simp only [sequence] at hs
  repeat' split at hs
  all_goals cases hs
  all_goals decide

variable {x : UInt8}

theorem fromUtf8Lossy_append_ascii (hx : x < 0x80) (a r : List UInt8) :
    fromUtf8Lossy (a ++ x :: r) = fromUtf8Lossy a ++ Char.ofNat x.toNat :: fromUtf8Lossy r := by
  induction a using fromUtf8Lossy.induct
  case case1 => simp [fromUtf8Lossy, hx]
  case case2 b a hb ih => simp [fromUtf8Lossy, hb, ih]
  case case3 b a hb hs ih => simp [fromUtf8Lossy, hb, hs, ih]
  case case4 b a hb len lo hi hs n ih =>
    have hl := (sequence_bounds b _ hs).2.2
    have hn : n ≤ a.length := continuation_le len lo hi a
    have hc : continuation len lo hi (a ++ x :: r) = n := continuation_ascii len hi hl hx a r
    rw [cons_append, fromUtf8Lossy, fromUtf8Lossy, if_neg hb, if_neg hb, hs]
    dsimp only
    rw [hc, take_append_of_le_length hn, drop_append_of_le_length hn, ih, cons_append]

-- A text that goes on is what was there and what comes then, or the end of what was there was only
-- the replacement of a character that is now complete.
def Continued (t s w : Text) : Prop :=
  w = t ++ s ∨ ∃ t' u, t = t' ++ [replacement] ∧ w = t' ++ u

theorem Continued.cons {t s w : Text} (c : Char) (h : Continued t s w) : Continued (c :: t) s (c :: w) := by
  rcases h with h | ⟨t', u, h, h'⟩
  · exact .inl (by rw [h, cons_append])
  · exact .inr ⟨c :: t', u, by rw [h, cons_append], by rw [h', cons_append]⟩

theorem fromUtf8Lossy_append_continued (a r : List UInt8) :
    Continued (fromUtf8Lossy a) (fromUtf8Lossy r) (fromUtf8Lossy (a ++ r)) := by
  induction a using fromUtf8Lossy.induct
  case case1 => exact .inl (by simp [fromUtf8Lossy])
  case case2 b a hb ih =>
    rw [cons_append, fromUtf8Lossy, fromUtf8Lossy, if_pos hb, if_pos hb]
    exact ih.cons _
  case case3 b a hb hs ih =>
    rw [cons_append, fromUtf8Lossy, fromUtf8Lossy, if_neg hb, if_neg hb, hs]
    exact ih.cons _
  case case4 b a hb len lo hi hs n ih =>
    have hn : n ≤ a.length := continuation_le len lo hi a
    rw [cons_append, fromUtf8Lossy, fromUtf8Lossy, if_neg hb, if_neg hb, hs]
    dsimp only
    rcases continuation_append len lo hi a r with hc | ⟨hc, hlt⟩
    · rw [hc, take_append_of_le_length hn, drop_append_of_le_length hn]
      exact ih.cons _
    -- The bytes ended inside the sequence.
    · have h₂ : 2 ≤ len := (sequence_bounds b _ hs).1
      have hlt' := continuation_lt lo hi h₂ (a ++ r)
      refine .inr ⟨[], _, ?_, rfl⟩
      rw [hc, if_neg (by omega), drop_length, fromUtf8Lossy, nil_append]

section Strict

variable {c : Char} {b : UInt8}

theorem utf8EncodeChar_two (h : 0x80 ≤ c.toNat) (h' : c.toNat ≤ 0x7ff) :
    String.utf8EncodeChar c = [.ofNat (c.toNat / 64 % 32 + 0xc0), follow c.toNat] := by
  rw [String.utf8EncodeChar]
  change (if c.toNat ≤ 0x7f then _ else if c.toNat ≤ 0x7ff then _ else _) = _
  rw [if_neg (by omega), if_pos h']
  rfl

theorem utf8EncodeChar_three (h : 0x800 ≤ c.toNat) (h' : c.toNat ≤ 0xffff) :
    String.utf8EncodeChar c = [.ofNat (c.toNat / 4096 % 16 + 0xe0), follow (c.toNat / 64), follow c.toNat] := by
  rw [String.utf8EncodeChar]
  change (if c.toNat ≤ 0x7f then _ else if c.toNat ≤ 0x7ff then _ else if c.toNat ≤ 0xffff then _ else _) = _
  rw [if_neg (by omega), if_neg (by omega), if_pos h']
  rfl

theorem utf8EncodeChar_four (h : 0xffff < c.toNat) : String.utf8EncodeChar c =
      [.ofNat (c.toNat / 262144 % 8 + 0xf0), follow (c.toNat / 4096), follow (c.toNat / 64), follow c.toNat] := by
  rw [String.utf8EncodeChar]
  change (if c.toNat ≤ 0x7f then _ else if c.toNat ≤ 0x7ff then _ else if c.toNat ≤ 0xffff then _ else _) = _
  rw [if_neg (by omega), if_neg (by omega), if_neg (by omega)]
  rfl

-- What the first byte of a sequence says of it.
structure Leads (b : UInt8) (len lo hi : Nat) : Prop where
  two : len = 2 → 0xc2 ≤ b.toNat ∧ b.toNat ≤ 0xdf
  three : len = 3 → 0xe0 ≤ b.toNat ∧ b.toNat ≤ 0xef
  four : len = 4 → 0xf0 ≤ b.toNat ∧ b.toNat ≤ 0xf4
  second : 0x80 ≤ lo ∧ hi ≤ 0xbf
  overlong : (b.toNat = 0xe0 → 0xa0 ≤ lo) ∧ (b.toNat = 0xf0 → 0x90 ≤ lo)
  valid : (b.toNat = 0xed → hi ≤ 0x9f) ∧ (b.toNat = 0xf4 → hi ≤ 0x8f)

variable {len : Nat}

theorem leads_of_sequence {lo hi : UInt8} (h : sequence b = some (len, lo, hi)) : Leads b len lo.toNat hi.toNat := by
  have (b : UInt8) : ∀ s ∈ sequence b, (s.1 = 2 → 0xc2 ≤ b.toNat ∧ b.toNat ≤ 0xdf) ∧
      (s.1 = 3 → 0xe0 ≤ b.toNat ∧ b.toNat ≤ 0xef) ∧ (s.1 = 4 → 0xf0 ≤ b.toNat ∧ b.toNat ≤ 0xf4) ∧
      (0x80 ≤ s.2.1.toNat ∧ s.2.2.toNat ≤ 0xbf) ∧
      ((b.toNat = 0xe0 → 0xa0 ≤ s.2.1.toNat) ∧ (b.toNat = 0xf0 → 0x90 ≤ s.2.1.toNat)) ∧
      ((b.toNat = 0xed → s.2.2.toNat ≤ 0x9f) ∧ (b.toNat = 0xf4 → s.2.2.toNat ≤ 0x8f)) := by
    revert b
    refine forall_byte ?_
    decide +kernel
  obtain ⟨h₂, h₃, h₄, hs, ho, hv⟩ := this b _ h
  exact ⟨h₂, h₃, h₄, hs, ho, hv⟩

theorem of_continuation {lo hi : UInt8} {r : List UInt8} (hl : 2 ≤ len) (h : continuation len lo hi r + 1 = len) :
    ∃ x ys r', r = x :: (ys ++ r') ∧ ys.length + 2 = len ∧ lo ≤ x ∧ x ≤ hi ∧ ∀ y ∈ ys, 0x80 ≤ y ∧ y ≤ 0xbf := by
  cases r
  case nil => simp only [continuation] at h; omega
  case cons x r =>
    rw [continuation] at h
    split at h
    case isFalse => omega
    case isTrue hx =>
      refine ⟨x, (r.takeWhile fun y => 0x80 ≤ y ∧ y ≤ 0xbf).take (len - 2), r.drop (len - 2), ?_, ?_, hx.1, hx.2, ?_⟩
      · have hp := r.takeWhile_prefix fun y => 0x80 ≤ y ∧ y ≤ 0xbf
        rw [prefix_iff_eq_take.mp hp, take_take, Nat.min_eq_left (by omega), take_append_drop]
      · rw [length_take]
        omega
      · intro y hy
        simpa using mem_takeWhile_imp (mem_of_mem_take hy)

theorem follow_toNat (h : 0x80 ≤ x.toNat) (h' : x.toNat ≤ 0xbf) {n : Nat} (hn : n % 64 = x.toNat % 64) :
    follow n = x := by
  refine UInt8.toNat.inj ?_
  rw [toNat_follow]
  omega

theorem toNat_ofNat_valid {n : Nat} (h : n < 0xd800 ∨ 0xdfff < n ∧ n < 0x110000) : (Char.ofNat n).toNat = n := by
  rw [Char.toNat_ofNat, if_pos h]

theorem ofNat_eq {n : Nat} (h : n = b.toNat) : UInt8.ofNat n = b := by
  rw [h, UInt8.ofNat_toNat]

section Values

variable {lo hi : Nat} {x : UInt8} (hx : lo ≤ x.toNat) (hx' : x.toNat ≤ hi)

include hx hx'

theorem utf8EncodeChar_of_two (hb : Leads b 2 lo hi) :
    String.utf8EncodeChar (Char.ofNat (b.toNat % 32 * 64 + x.toNat % 64)) = [b, x] := by
  have := hb.two rfl
  have := hb.second
  generalize hn : b.toNat % 32 * 64 + x.toNat % 64 = n
  have hc := toNat_ofNat_valid (n := n) (by omega)
  rw [utf8EncodeChar_two (by omega) (by omega), hc, follow_toNat (x := x) (by omega) (by omega) (by omega), ofNat_eq (b := b)]
  omega

theorem utf8EncodeChar_of_three (hb : Leads b 3 lo hi) {y : UInt8} (hy : 0x80 ≤ y.toNat ∧ y.toNat ≤ 0xbf) :
    String.utf8EncodeChar (Char.ofNat ((b.toNat % 16 * 64 + x.toNat % 64) * 64 + y.toNat % 64)) = [b, x, y] := by
  have := hb.three rfl
  have := hb.second
  have := hb.overlong
  have := hb.valid
  generalize hn : (b.toNat % 16 * 64 + x.toNat % 64) * 64 + y.toNat % 64 = n
  have hc := toNat_ofNat_valid (n := n) (by omega)
  rw [utf8EncodeChar_three (by omega) (by omega), hc, follow_toNat (x := x) (by omega) (by omega) (by omega),
    follow_toNat hy.1 hy.2 (by omega), ofNat_eq (b := b)]
  omega

theorem utf8EncodeChar_of_four (hb : Leads b 4 lo hi) {y z : UInt8} (hy : 0x80 ≤ y.toNat ∧ y.toNat ≤ 0xbf)
    (hz : 0x80 ≤ z.toNat ∧ z.toNat ≤ 0xbf) :
    String.utf8EncodeChar (Char.ofNat (((b.toNat % 8 * 64 + x.toNat % 64) * 64 + y.toNat % 64) * 64 + z.toNat % 64)) =
      [b, x, y, z] := by
  have := hb.four rfl
  have := hb.second
  have := hb.overlong
  have := hb.valid
  generalize hn : ((b.toNat % 8 * 64 + x.toNat % 64) * 64 + y.toNat % 64) * 64 + z.toNat % 64 = n
  have hc := toNat_ofNat_valid (n := n) (by omega)
  rw [utf8EncodeChar_four (by omega), hc, follow_toNat (x := x) (by omega) (by omega) (by omega),
    follow_toNat hy.1 hy.2 (by omega), follow_toNat hz.1 hz.2 (by omega), ofNat_eq (b := b)]
  omega

theorem utf8EncodeChar_value (hb : Leads b len lo hi) {ys : List UInt8} (hl : ys.length + 2 = len)
    (h₄ : len ≤ 4) (hy : ∀ y ∈ ys, 0x80 ≤ y.toNat ∧ y.toNat ≤ 0xbf) :
    String.utf8EncodeChar (Char.ofNat ((x :: ys).foldl (fun v x => v * 64 + x.toNat % 64) (b.toNat % 2 ^ (7 - len)))) =
      b :: x :: ys := by
  match ys with
  | [] =>
    cases hl
    exact utf8EncodeChar_of_two hx hx' hb
  | [y] =>
    cases hl
    exact utf8EncodeChar_of_three hx hx' hb (hy y mem_cons_self)
  | [y, z] =>
    cases hl
    exact utf8EncodeChar_of_four hx hx' hb (hy y mem_cons_self) (hy z (mem_cons_of_mem _ mem_cons_self))
  | _ :: _ :: _ :: _ =>
    simp only [length_cons] at hl
    omega

end Values

theorem utf8EncodeChar_sequence {lo hi : UInt8} (hs : sequence b = some (len, lo, hi)) {r : List UInt8}
    (hn : continuation len lo hi r + 1 = len) :
    String.utf8EncodeChar (Char.ofNat ((r.take (continuation len lo hi r)).foldl (fun v x => v * 64 + x.toNat % 64)
      (b.toNat % 2 ^ (7 - len)))) = b :: r.take (continuation len lo hi r) := by
  obtain ⟨h₂, h₄, _⟩ := sequence_bounds b _ hs
  obtain ⟨x, ys, r', hr, hl, hx, hx', hy⟩ := of_continuation h₂ hn
  have hk : continuation len lo hi r = (x :: ys).length := by
    rw [length_cons]
    omega
  have ht : r.take (continuation len lo hi r) = x :: ys := by rw [hk, hr, ← cons_append, take_left]
  rw [ht]
  exact utf8EncodeChar_value hx hx' (leads_of_sequence hs) hl h₄ hy

theorem utf8_cons (c : Char) (t : Text) : utf8 (c :: t) = String.utf8EncodeChar c ++ utf8 t :=
  flatMap_cons ..

theorem utf8_append (t u : Text) : utf8 (t ++ u) = utf8 t ++ utf8 u :=
  flatMap_append

theorem utf8EncodeChar_ascii (h : b < 0x80) : String.utf8EncodeChar (Char.ofNat b.toNat) = [b] := by
  have hb : b.toNat < 128 := h
  have hc := toNat_ofNat_valid (n := b.toNat) (by omega)
  rw [String.utf8EncodeChar]
  change (if (Char.ofNat b.toNat).toNat ≤ 0x7f then _ else _) = _
  rw [if_pos (by omega)]
  change [UInt8.ofNat (Char.ofNat b.toNat).toNat] = _
  rw [hc, UInt8.ofNat_toNat]

variable {bytes : List UInt8}

theorem utf8_of_fromUtf8 {t : Text} (h : fromUtf8 bytes = some t) : utf8 t = bytes := by
  induction bytes using fromUtf8.induct generalizing t
  case case1 =>
    rw [fromUtf8] at h
    cases h
    rfl
  case case2 b r hb ih =>
    rw [fromUtf8, if_pos hb] at h
    obtain ⟨t, ht, rfl⟩ := Option.map_eq_some_iff.mp h
    rw [utf8_cons, utf8EncodeChar_ascii hb, ih ht]
    rfl
  case case3 b r hb hs =>
    rw [fromUtf8, if_neg hb, hs] at h
    cases h
  case case4 b r hb len lo hi hs n hn ih =>
    rw [fromUtf8, if_neg hb, hs] at h
    obtain ⟨t, ht, rfl⟩ := Option.map_eq_some_iff.mp ((if_pos hn).symm.trans h)
    rw [utf8_cons, ih ht, utf8EncodeChar_sequence hs hn, cons_append, take_append_drop]
  case case5 b r hb len lo hi hs n hn =>
    rw [fromUtf8, if_neg hb, hs] at h
    cases (if_neg hn).symm.trans h

theorem mem_of_mem_fromUtf8Lossy (hx : x < 0x80) (h : Char.ofNat x.toNat ∈ fromUtf8Lossy bytes) : x ∈ bytes := by
  have hr : Char.ofNat x.toNat ≠ replacement := by
    have hx' : x.toNat < 128 := hx
    intro he
    have hn := congrArg Char.toNat he
    rw [toNat_ofNat_valid (by omega)] at hn
    exact absurd (hn ▸ hx') (by decide)
  induction bytes using fromUtf8Lossy.induct
  case case1 => rw [fromUtf8Lossy] at h; cases h
  case case2 b r hb ih =>
    rw [fromUtf8Lossy, if_pos hb] at h
    rcases mem_cons.mp h with h | h
    · have he := congrArg String.utf8EncodeChar h
      rw [utf8EncodeChar_ascii hx, utf8EncodeChar_ascii hb] at he
      exact mem_cons.mpr (.inl (List.cons.inj he).1)
    · exact mem_cons_of_mem _ (ih h)
  case case3 b r hb hs ih =>
    rw [fromUtf8Lossy, if_neg hb, hs] at h
    rcases mem_cons.mp h with h | h
    · exact absurd h hr
    · exact mem_cons_of_mem _ (ih h)
  case case4 b r hb len lo hi hs n ih =>
    rw [fromUtf8Lossy, if_neg hb, hs] at h
    rcases mem_cons.mp h with h | h
    · split at h
      case isFalse => exact absurd h hr
      case isTrue hn =>
        have h₂ : 2 ≤ len := (sequence_bounds b _ hs).1
        have hle := continuation_le len lo hi r
        have he := congrArg String.utf8EncodeChar h
        rw [utf8EncodeChar_ascii hx, utf8EncodeChar_sequence hs hn] at he
        have hlen := congrArg List.length (List.cons.inj he).2
        rw [length_nil, length_take] at hlen
        omega
    · exact mem_cons_of_mem _ (mem_of_mem_drop (ih h))

theorem fromUtf8Lossy_ne_nil (h : bytes ≠ []) : fromUtf8Lossy bytes ≠ [] := by
  obtain ⟨b, r, rfl⟩ := exists_cons_of_ne_nil h
  rw [fromUtf8Lossy]
  split
  case isTrue => exact cons_ne_nil _ _
  case isFalse => split <;> exact cons_ne_nil _ _

theorem getLast?_of_fromUtf8Lossy (hx : x < 0x80)
    (h : (fromUtf8Lossy bytes).getLast? = some (Char.ofNat x.toNat)) : bytes.getLast? = some x := by
  have hm := mem_of_mem_fromUtf8Lossy hx (mem_of_getLast? h)
  -- The last occurrence of the byte.
  obtain ⟨v, u, hr, hv⟩ := eq_append_cons_of_mem (mem_reverse.mpr hm)
  have hb : bytes = u.reverse ++ x :: v.reverse := by
    rw [← bytes.reverse_reverse, hr]
    simp
  by_cases hn : v = []
  case pos => rw [hb, hn, reverse_nil, List.getLast?_concat]
  case neg =>
    have hl := fromUtf8Lossy_ne_nil (mt reverse_eq_nil_iff.mp hn)
    rw [hb, fromUtf8Lossy_append_ascii hx, List.getLast?_append_cons, List.getLast?_cons_of_ne_nil hl] at h
    have := mem_of_mem_fromUtf8Lossy hx (mem_of_getLast? h)
    exact absurd (mem_reverse.mp this) hv

-- What the lossy decoding keeps is exactly what the strict one takes.
theorem utf8_fromUtf8Lossy_iff (bytes : List UInt8) : utf8 (fromUtf8Lossy bytes) = bytes ↔ (fromUtf8 bytes).isSome := by
  constructor
  case mp =>
    intro h
    rw [← h, fromUtf8_utf8]
    rfl
  case mpr =>
    intro h
    obtain ⟨t, ht⟩ := Option.isSome_iff_exists.mp h
    rw [← utf8_of_fromUtf8 ht, fromUtf8Lossy_utf8]

end Strict

end Rust.Text
