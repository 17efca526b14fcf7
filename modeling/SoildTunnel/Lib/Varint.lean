import SoildTunnel.Lib.Incremental
import SoildTunnel.Lib.Octets

-- Variable-length integers: how they are read and written.
namespace Octets

open Nat

open Incremental (next)

theorem next_getVarint_cons (x : UInt8) (b : List UInt8) : next getVarint (x :: b) =
      if 2 ^ (x.toNat / 64) ≤ b.length + 1 then
        some (bigEndian ((x :: b).take (2 ^ (x.toNat / 64))) % 2 ^ (8 * 2 ^ (x.toNat / 64) - 2),
          (x :: b).drop (2 ^ (x.toNat / 64)))
      else none := by
  simp only [next, getVarint]
  split
  case isTrue => rfl
  case isFalse => rfl

theorem next_getVarint_eq_some {b r : List UInt8} {n : Nat} (h : next getVarint b = some (n, r)) :
    ∃ p, b = p ++ r ∧ ∀ c, next getVarint (p ++ c) = some (n, c) := by
  cases b
  case nil => cases h
  case cons x b =>
    obtain ⟨k, hk⟩ : ∃ k, 2 ^ (x.toNat / 64) = k + 1 := Nat.exists_eq_add_one.mpr (Nat.two_pow_pos _)
    rw [next_getVarint_cons, hk] at h
    have ⟨hl, he⟩ := Option.ite_none_right_eq_some.mp h
    obtain ⟨rfl, rfl⟩ := Prod.mk.inj (Option.some_inj.mp he)
    have hl : k ≤ b.length := by omega
    refine ⟨x :: b.take k, by simp, fun c => ?_⟩
    rw [List.cons_append, next_getVarint_cons, hk, if_pos (by simp; omega)]
    simp [hl]

section Write

def toBytes : Nat → Nat → List UInt8
  | 0, _ => []
  | n + 1, v => .ofNat (v / 256 ^ n) :: toBytes n v

theorem length_toBytes (n v : Nat) : (toBytes n v).length = n := by
  induction n
  case zero => rfl
  case succ n hi => rw [toBytes, List.length_cons, hi]

theorem foldl_bigEndian (b : List UInt8) (n : Nat) :
    b.foldl (fun n x => n * 256 + x.toNat) n = n * 256 ^ b.length + bigEndian b := by
  induction b generalizing n
  case nil => simp [bigEndian]
  case cons x b hi =>
    have hb := hi (0 * 256 + x.toNat)
    rw [bigEndian, List.foldl_cons, List.foldl_cons, hi, hb, List.length_cons, pow_succ]
    ring

theorem bigEndian_cons (x : UInt8) (b : List UInt8) : bigEndian (x :: b) = x.toNat * 256 ^ b.length + bigEndian b := by
  rw [bigEndian, List.foldl_cons, foldl_bigEndian, zero_mul, zero_add]

theorem bigEndian_toBytes (n v : Nat) : bigEndian (toBytes n v) = v % 256 ^ n := by
  induction n
  case zero => rw [toBytes, pow_zero, mod_one]; rfl
  case succ n hi =>
    rw [toBytes, bigEndian_cons, hi, length_toBytes, UInt8.toNat_ofNat', show 2 ^ 8 = 256 from rfl, pow_succ, mod_mul]
    ring

-- The highest bits of the first byte.
def setHigh (bits : UInt8) : List UInt8 → List UInt8
  | [] => []
  | x :: r => (x ||| bits) :: r

-- The length of the shortest form. Numbers of more than 62 bits have none.
def varintLen (v : Nat) : Nat :=
  if v ≤ 63 then 1
  else if v ≤ 16383 then 2
  else if v ≤ 1073741823 then 4
  else 8

def putVarintWithLen (v : Nat) : Nat → List UInt8
  | 1 => toBytes 1 v
  | 2 => setHigh 0x40 (toBytes 2 v)
  | 4 => setHigh 0x80 (toBytes 4 v)
  | 8 => setHigh 0xc0 (toBytes 8 v)
  | _ => []

def putVarint (v : Nat) : List UInt8 :=
  putVarintWithLen v (varintLen v)

theorem toNat_or_bits {x : UInt8} {e : Nat} (hx : x.toNat < 64) (he : e ≤ 3) :
    (x ||| .ofNat (64 * e)).toNat = 64 * e + x.toNat := by
  rw [UInt8.toNat_or, UInt8.toNat_ofNat', Nat.mod_eq_of_lt (show 64 * e < 2 ^ 8 by omega), Nat.or_comm,
    show 64 * e = 2 ^ 6 * e from rfl, ← two_pow_add_eq_or_of_lt hx]

theorem next_getVarint_setHigh {e v : Nat} (he : e ≤ 3) (hv : v < 2 ^ (8 * 2 ^ e - 2)) (c : List UInt8) :
    next getVarint (setHigh (.ofNat (64 * e)) (toBytes (2 ^ e) v) ++ c) = some (v, c) := by
  obtain ⟨k, hk⟩ : ∃ k, 2 ^ e = k + 1 := Nat.exists_eq_add_one.mpr (Nat.two_pow_pos e)
  have hp : 2 ^ (8 * (k + 1) - 2) = 64 * 256 ^ k := by
    rw [show 8 * (k + 1) - 2 = 6 + 8 * k by omega, Nat.pow_add, Nat.pow_mul]
  rw [hk, hp] at hv
  have hd : v / 256 ^ k < 64 := Nat.div_lt_of_lt_mul (by rwa [Nat.mul_comm])
  have hx : (UInt8.ofNat (v / 256 ^ k)).toNat = v / 256 ^ k := by
    rw [UInt8.toNat_ofNat', Nat.mod_eq_of_lt (lt_trans hd (by decide))]
  have hn := toNat_or_bits (hx ▸ hd) he
  rw [hx] at hn
  rw [hk, toBytes, setHigh, List.cons_append, next_getVarint_cons, hn, show (64 * e + v / 256 ^ k) / 64 = e by omega, hk,
    if_pos (by simp [length_toBytes]), hp, List.take_succ_cons, List.drop_succ_cons]
  have ht : (toBytes k v ++ c).take k = toBytes k v := List.take_left' (length_toBytes k v)
  have hr : (toBytes k v ++ c).drop k = c := List.drop_left' (length_toBytes k v)
  have hm : (64 * e + v / 256 ^ k) * 256 ^ k + v % 256 ^ k = v + 64 * 256 ^ k * e := by
    have := Nat.div_add_mod v (256 ^ k)
    nlinarith
  rw [ht, hr, bigEndian_cons, hn, length_toBytes, bigEndian_toBytes, hm, Nat.add_mul_mod_self_left, Nat.mod_eq_of_lt hv]

theorem next_getVarint_putVarint {v : Nat} (h : v < 2 ^ 62) (c : List UInt8) :
    next getVarint (putVarint v ++ c) = some (v, c) := by
  unfold putVarint varintLen
  split
  case isTrue h₁ =>
    have hs : toBytes 1 v = setHigh (.ofNat (64 * 0)) (toBytes (2 ^ 0) v) := by simp [toBytes, setHigh]
    rw [putVarintWithLen, hs]
    exact next_getVarint_setHigh (by omega) (by omega) c
  case isFalse h₁ =>
    split
    case isTrue h₂ => exact next_getVarint_setHigh (e := 1) (by omega) (by omega) c
    case isFalse h₂ =>
      split
      case isTrue h₃ => exact next_getVarint_setHigh (e := 2) (by omega) (by omega) c
      case isFalse h₃ => exact next_getVarint_setHigh (e := 3) (by omega) (by omega) c

theorem length_setHigh (bits : UInt8) (b : List UInt8) : (setHigh bits b).length = b.length := by
  cases b <;> rfl

theorem length_putVarint (v : Nat) : (putVarint v).length = varintLen v := by
  unfold putVarint varintLen
  split
  case isTrue => exact length_toBytes 1 v
  case isFalse =>
    split
    case isTrue => exact (length_setHigh ..).trans (length_toBytes 2 v)
    case isFalse =>
      split
      case isTrue => exact (length_setHigh ..).trans (length_toBytes 4 v)
      case isFalse => exact (length_setHigh ..).trans (length_toBytes 8 v)

-- A buffer that is filled from the front: what was written, and how much is left.
structure Writer where
  written : List UInt8 := []
  cap : Nat

namespace Writer

def put (w : Writer) (b : List UInt8) : Option Writer :=
  if w.cap < b.length then none else some ⟨w.written ++ b, w.cap - b.length⟩

-- The rest of the buffer is zero.
def out (w : Writer) : List UInt8 :=
  w.written ++ List.replicate w.cap 0

theorem put_eq_some (written b : List UInt8) (n : Nat) : put ⟨written, b.length + n⟩ b = some ⟨written ++ b, n⟩ := by
  rw [put, if_neg (not_lt.mpr (Nat.le_add_right _ n)), Nat.add_sub_cancel_left]

theorem put_eq_some_zero (written b : List UInt8) : put ⟨written, b.length⟩ b = some ⟨written ++ b, 0⟩ :=
  put_eq_some written b 0

end Writer

end Write

end Octets
