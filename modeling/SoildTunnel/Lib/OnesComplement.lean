import Mathlib

-- Sums of words from `0` to `m` with end-around carry. There are two words for zero.
namespace OnesComplement

open Nat

variable {m : Nat}

def add (m a b : Nat) : Nat :=
  if m < a + b then a + b - m else a + b

def sum (m : Nat) (ws : List Nat) : Nat :=
  ws.foldl (add m) 0

-- What a receiver asks of the words with their checksum among them.
def Verifies (m : Nat) (ws : List Nat) : Prop :=
  sum m ws = m

-- The word for a sum. Only the empty sum is written as zero.
structure Represents (m a s : Nat) : Prop where
  le : a ≤ m
  modEq : a ≡ s [MOD m]
  eq_zero_iff : a = 0 ↔ s = 0

theorem Represents.zero : Represents m 0 0 :=
  ⟨m.zero_le, rfl, Iff.rfl⟩

theorem Represents.add {a b s : Nat} (h : Represents m a s) (hb : b ≤ m) : Represents m (add m a b) (s + b) := by
  have hz := h.eq_zero_iff
  have ha := h.le
  unfold OnesComplement.add
  split
  case isTrue hc =>
    refine ⟨by omega, ?_, by omega⟩
    calc a + b - m ≡ a + b - m + m [MOD m] := (add_modEq_right ..).symm
      _ = a + b := Nat.sub_add_cancel hc.le
      _ ≡ s + b [MOD m] := h.modEq.add_right b
  case isFalse hc => exact ⟨by omega, h.modEq.add_right b, by omega⟩

variable {ws : List Nat}

theorem represents_foldl {a s : Nat} (h : Represents m a s) (hw : ∀ w ∈ ws, w ≤ m) :
    Represents m (ws.foldl (add m) a) (s + ws.sum) := by
  induction ws generalizing a s
  case nil => exact h
  case cons w ws ih =>
    rw [List.sum_cons, ← add_assoc]
    exact ih (h.add (hw w List.mem_cons_self)) fun v hv => hw v (List.mem_cons_of_mem w hv)

theorem represents_sum (hw : ∀ w ∈ ws, w ≤ m) : Represents m (sum m ws) ws.sum := by
  simpa [sum] using represents_foldl Represents.zero hw

theorem Represents.eq_top_iff {a s : Nat} (hm : 0 < m) (h : Represents m a s) : a = m ↔ s ≠ 0 ∧ m ∣ s := by
  have hz := h.eq_zero_iff
  constructor
  case mp =>
    rintro rfl
    exact ⟨by omega, (modEq_zero_iff_dvd.mp (h.modEq.symm.trans (by simp [Nat.ModEq])))⟩
  case mpr =>
    rintro ⟨hs, hd⟩
    have hd : m ∣ a := (h.modEq.dvd_iff dvd_rfl).mpr hd
    exact le_antisymm h.le (le_of_dvd (by omega) hd)

theorem verifies_iff (hm : 0 < m) (hw : ∀ w ∈ ws, w ≤ m) : Verifies m ws ↔ ws.sum ≠ 0 ∧ m ∣ ws.sum :=
  (represents_sum hw).eq_top_iff hm

theorem carry_modEq (m s : Nat) : s % (m + 1) + s / (m + 1) ≡ s [MOD m] := by
  have h : s % (m + 1) + s / (m + 1) + m * (s / (m + 1)) = s := by
    have := mod_add_div s (m + 1)
    rw [add_mul, one_mul] at this
    omega
  calc s % (m + 1) + s / (m + 1) ≡ s % (m + 1) + s / (m + 1) + m * (s / (m + 1)) [MOD m] := by
        simp [Nat.ModEq, add_mul_mod_self_left]
    _ = s := h

theorem carry_eq_zero_iff (m s : Nat) : s % (m + 1) + s / (m + 1) = 0 ↔ s = 0 := by
  have := Nat.mod_add_div s (m + 1)
  constructor
  case mp =>
    intro h
    obtain ⟨hr, hd⟩ := Nat.add_eq_zero_iff.mp h
    rw [← this, hr, hd, Nat.mul_zero]
  case mpr =>
    rintro rfl
    simp

theorem Represents.dvd_add_sub {a s : Nat} (h : Represents m a s) : m ∣ s + (m - a) := by
  refine modEq_zero_iff_dvd.mp ?_
  calc s + (m - a) ≡ a + (m - a) [MOD m] := h.modEq.symm.add_right _
    _ = m := Nat.add_sub_cancel' h.le
    _ ≡ 0 [MOD m] := by simp [Nat.ModEq]

-- Octets as words of 16 bits. A last odd octet is the upper half of a word.
def words : List UInt8 → List Nat
  | a :: b :: t => (a.toNat * 256 + b.toNat) :: words t
  | [a] => [a.toNat * 256]
  | [] => []

theorem words_le (b : List UInt8) : ∀ w ∈ words b, w ≤ 0xffff := by
  intro w hw
  fun_induction words b
  case case1 a b t ih =>
    have := a.toNat_lt
    have := b.toNat_lt
    rcases List.mem_cons.mp hw with rfl | hw
    case inl => omega
    case inr => exact ih hw
  case case2 a =>
    have := a.toNat_lt
    simp only [List.mem_singleton] at hw
    omega
  case case3 => cases hw

theorem words_append {a b : List UInt8} (h : Even a.length) : words (a ++ b) = words a ++ words b := by
  fun_induction words a
  case case1 x y t ih =>
    have ht : Even t.length := by simpa [even_add_one] using h
    simp [words, ih ht]
  case case2 x => simp at h
  case case3 => rfl

theorem sum_words_fill {a : List UInt8} (h : Even a.length) (hi lo : UInt8) (b : List UInt8) :
    (words (a ++ hi :: lo :: b)).sum = (words (a ++ 0 :: 0 :: b)).sum + (hi.toNat * 256 + lo.toNat) := by
  rw [words_append h, words_append h]
  simp [words]
  omega

end OnesComplement
