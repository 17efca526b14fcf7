import SoildTunnel.Rust.Text

-- What is encoded is decoded again.
namespace Rust.Text

open List UInt8

-- The bytes that continue a sequence carry six bits each.
def follow (v : Nat) : UInt8 :=
  .ofNat (v % 64 + 128)

theorem toNat_follow (v : Nat) : (follow v).toNat = v % 64 + 128 := by
  rw [follow, toNat_ofNat']
  omega

theorem follow_continues (v : Nat) : 0x80 ≤ follow v ∧ follow v ≤ 0xbf := by
  rw [le_iff_toNat_le, le_iff_toNat_le, toNat_follow]
  refine ⟨?_, ?_⟩
  · change 128 ≤ v % 64 + 128; omega
  · change v % 64 + 128 ≤ 191; omega

theorem length_takeWhile_follow (vs : List Nat) (r : List UInt8) :
    vs.length ≤ ((vs.map follow ++ r).takeWhile fun y => 0x80 ≤ y ∧ y ≤ 0xbf).length := by
  induction vs
  case nil => exact Nat.zero_le _
  case cons v vs hi => simpa [follow_continues v] using hi

theorem continuation_follow {lo hi : UInt8} {v : Nat} (vs : List Nat) (r : List UInt8)
    (h : lo ≤ follow v ∧ follow v ≤ hi) :
    continuation (vs.length + 2) lo hi (follow v :: (vs.map follow ++ r)) = vs.length + 1 := by
  have hl := length_takeWhile_follow vs r
  rw [continuation, if_pos h]
  omega

-- The characters that take a sequence of several bytes.
inductive Encoded (c : Char) : List UInt8 → Prop
  | single (h : c.toNat < 128) : Encoded c [.ofNat c.toNat]
  | several (b lo hi : UInt8) (v : Nat) (vs : List Nat)
    (head : 0x80 ≤ b) (sequence : sequence b = some (vs.length + 2, lo, hi))
    (second : lo ≤ follow v ∧ follow v ≤ hi)
    (value : (v :: vs).foldl (fun n x => n * 64 + x % 64) (b.toNat % 2 ^ (7 - (vs.length + 2))) = c.toNat) :
    Encoded c (b :: follow v :: vs.map follow)

theorem toNat_ofNat_of_lt {n : Nat} (h : n < 256) : (UInt8.ofNat n).toNat = n := by
  rw [toNat_ofNat']
  omega

theorem forall_byte {P : UInt8 → Prop} (h : ∀ n : Fin 256, P (.ofNat n.val)) (b : UInt8) : P b := by
  have := h ⟨b.toNat, b.toNat_lt⟩
  rwa [UInt8.ofNat_toNat] at this

theorem sequence_two (b : UInt8) : 0xc2 ≤ b.toNat → b.toNat ≤ 0xdf → 0x80 ≤ b ∧ sequence b = some (2, 0x80, 0xbf) :=
  forall_byte (P := fun b => 0xc2 ≤ b.toNat → b.toNat ≤ 0xdf → 0x80 ≤ b ∧ sequence b = some (2, 0x80, 0xbf))
    (by decide +kernel) b

theorem sequence_three (b : UInt8) : 0xe0 ≤ b.toNat → b.toNat ≤ 0xef →
      0x80 ≤ b ∧ sequence b = some (3, if b.toNat = 0xe0 then 0xa0 else 0x80, if b.toNat = 0xed then 0x9f else 0xbf) :=
  forall_byte (P := fun b => 0xe0 ≤ b.toNat → b.toNat ≤ 0xef →
      0x80 ≤ b ∧ sequence b = some (3, if b.toNat = 0xe0 then 0xa0 else 0x80, if b.toNat = 0xed then 0x9f else 0xbf))
    (by decide +kernel) b

theorem sequence_four (b : UInt8) : 0xf0 ≤ b.toNat → b.toNat ≤ 0xf4 →
      0x80 ≤ b ∧ sequence b = some (4, if b.toNat = 0xf0 then 0x90 else 0x80, if b.toNat = 0xf4 then 0x8f else 0xbf) :=
  forall_byte (P := fun b => 0xf0 ≤ b.toNat → b.toNat ≤ 0xf4 →
      0x80 ≤ b ∧ sequence b = some (4, if b.toNat = 0xf0 then 0x90 else 0x80, if b.toNat = 0xf4 then 0x8f else 0xbf))
    (by decide +kernel) b

theorem encoded_two {c : Char} (h : 0x80 ≤ c.toNat) (h' : c.toNat ≤ 0x7ff) :
    Encoded c [.ofNat (c.toNat / 64 % 32 + 0xc0), follow c.toNat] := by
  have hb : (UInt8.ofNat (c.toNat / 64 % 32 + 0xc0)).toNat = c.toNat / 64 + 0xc0 := by
    rw [toNat_ofNat_of_lt (by omega)]
    omega
  generalize UInt8.ofNat (c.toNat / 64 % 32 + 0xc0) = b at hb ⊢
  have ⟨hh, hs⟩ := sequence_two b (by omega) (by omega)
  refine .several _ _ _ c.toNat [] hh hs (follow_continues _) ?_
  simp only [List.foldl, length_nil, hb]
  omega

theorem encoded_three {c : Char} (h : 0x800 ≤ c.toNat) (h' : c.toNat ≤ 0xffff) (hc : c.toNat < 0xd800 ∨ 0xdfff < c.toNat) :
    Encoded c [.ofNat (c.toNat / 4096 % 16 + 0xe0), follow (c.toNat / 64), follow c.toNat] := by
  have hb : (UInt8.ofNat (c.toNat / 4096 % 16 + 0xe0)).toNat = c.toNat / 4096 + 0xe0 := by
    rw [toNat_ofNat_of_lt (by omega)]
    omega
  generalize UInt8.ofNat (c.toNat / 4096 % 16 + 0xe0) = b at hb ⊢
  have ⟨hh, hs⟩ := sequence_three b (by omega) (by omega)
  refine .several _ _ _ (c.toNat / 64) [c.toNat] hh hs ?_ ?_
  · rw [hb, le_iff_toNat_le, le_iff_toNat_le, toNat_follow]
    refine ⟨?_, ?_⟩
    · split
      · change 0xa0 ≤ _; omega
      · change 0x80 ≤ _; omega
    · split
      · change _ ≤ 0x9f; omega
      · change _ ≤ 0xbf; omega
  · simp only [List.foldl, length_cons, length_nil, hb]
    omega

theorem encoded_four {c : Char} (h : 0xffff < c.toNat) (h' : c.toNat ≤ 0x10ffff) :
    Encoded c [.ofNat (c.toNat / 262144 % 8 + 0xf0), follow (c.toNat / 4096), follow (c.toNat / 64), follow c.toNat] := by
  have hb : (UInt8.ofNat (c.toNat / 262144 % 8 + 0xf0)).toNat = c.toNat / 262144 + 0xf0 := by
    rw [toNat_ofNat_of_lt (by omega)]
    omega
  generalize UInt8.ofNat (c.toNat / 262144 % 8 + 0xf0) = b at hb ⊢
  have ⟨hh, hs⟩ := sequence_four b (by omega) (by omega)
  refine .several _ _ _ (c.toNat / 4096) [c.toNat / 64, c.toNat] hh hs ?_ ?_
  · rw [hb, le_iff_toNat_le, le_iff_toNat_le, toNat_follow]
    refine ⟨?_, ?_⟩
    · split
      · change 0x90 ≤ _; omega
      · change 0x80 ≤ _; omega
    · split
      · change _ ≤ 0x8f; omega
      · change _ ≤ 0xbf; omega
  · simp only [List.foldl, length_cons, length_nil, hb]
    omega

theorem toNat_valid (c : Char) : c.toNat < 0xd800 ∨ 0xdfff < c.toNat ∧ c.toNat < 0x110000 :=
  c.valid

theorem encoded_utf8EncodeChar (c : Char) : Encoded c (String.utf8EncodeChar c) := by
  have hv := toNat_valid c
  rw [String.utf8EncodeChar]
  change Encoded c (if c.toNat ≤ 0x7f then _ else if c.toNat ≤ 0x7ff then _ else if c.toNat ≤ 0xffff then _ else _)
  split
  case isTrue h => exact .single (by omega)
  case isFalse h₁ =>
    split
    case isTrue h₂ => exact encoded_two (by omega) h₂
    case isFalse h₂ =>
      split
      case isTrue h₃ => exact encoded_three (by omega) h₃ (by omega)
      case isFalse h₃ => exact encoded_four (by omega) (by omega)

section Decode

variable {c : Char} {bytes : List UInt8}

theorem foldl_follow (vs : List Nat) (n : Nat) :
    (vs.map follow).foldl (fun v x => v * 64 + x.toNat % 64) n = vs.foldl (fun n x => n * 64 + x % 64) n := by
  rw [foldl_map]
  congr
  funext n x
  rw [toNat_follow]
  omega

theorem single_lt (h : c.toNat < 0x80) : UInt8.ofNat c.toNat < 0x80 := by
  rw [lt_iff_toNat_lt, toNat_ofNat_of_lt (by omega)]
  exact h

theorem take_drop_follow (v : Nat) (vs : List Nat) (r : List UInt8) :
    (follow v :: (vs.map follow ++ r)).take (vs.length + 1) = (v :: vs).map follow ∧
      (follow v :: (vs.map follow ++ r)).drop (vs.length + 1) = r := by
  have hl : ((v :: vs).map follow).length = vs.length + 1 := by simp
  rw [← cons_append, ← map_cons, ← hl, take_left, drop_left]
  exact ⟨rfl, rfl⟩

theorem fromUtf8Lossy_append (h : Encoded c bytes) (r : List UInt8) :
    fromUtf8Lossy (bytes ++ r) = c :: fromUtf8Lossy r := by
  cases h
  case single h =>
    rw [singleton_append, fromUtf8Lossy, if_pos (single_lt h), toNat_ofNat_of_lt (by omega), Char.ofNat_toNat]
  case several b lo hi v vs hh hs h₂ hv =>
    obtain ⟨ht, hd⟩ := take_drop_follow v vs r
    rw [cons_append, fromUtf8Lossy, if_neg (UInt8.not_lt.mpr hh), hs]
    dsimp only
    rw [cons_append, continuation_follow vs r h₂, if_pos rfl, ht, hd, foldl_follow, hv, Char.ofNat_toNat]

theorem fromUtf8_append (h : Encoded c bytes) (r : List UInt8) :
    fromUtf8 (bytes ++ r) = (fromUtf8 r).map (c :: ·) := by
  cases h
  case single h =>
    rw [singleton_append, fromUtf8, if_pos (single_lt h), toNat_ofNat_of_lt (by omega), Char.ofNat_toNat]
  case several b lo hi v vs hh hs h₂ hv =>
    obtain ⟨ht, hd⟩ := take_drop_follow v vs r
    rw [cons_append, fromUtf8, if_neg (UInt8.not_lt.mpr hh), hs]
    dsimp only
    rw [cons_append, continuation_follow vs r h₂, if_pos rfl, ht, hd, foldl_follow, hv, Char.ofNat_toNat]

theorem fromUtf8Lossy_utf8 (t : Text) : fromUtf8Lossy t.utf8 = t := by
  induction t
  case nil => rw [utf8, flatMap_nil, fromUtf8Lossy]
  case cons c t hi => rw [utf8, flatMap_cons, fromUtf8Lossy_append (encoded_utf8EncodeChar c), ← utf8, hi]

theorem fromUtf8_utf8 (t : Text) : fromUtf8 t.utf8 = some t := by
  induction t
  case nil => rw [utf8, flatMap_nil, fromUtf8]
  case cons c t hi =>
    rw [utf8, flatMap_cons, fromUtf8_append (encoded_utf8EncodeChar c), ← utf8, hi, Option.map_some]

end Decode

end Rust.Text
