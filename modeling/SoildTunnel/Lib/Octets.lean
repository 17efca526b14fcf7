import Mathlib

-- Reading from the front of a byte string. A reader returns what is left together with the fact
-- that it is shorter, which is what loops over readers terminate by.
namespace Octets

abbrev Rest (b : List UInt8) := { r : List UInt8 // r.length < b.length }

def getU8 : (b : List UInt8) → Option (UInt8 × Rest b)
  | [] => none
  | x :: r => some (x, ⟨r, Nat.lt_succ_self _⟩)

def getBytes (b : List UInt8) (n : Nat) : Option (List UInt8 × { r : List UInt8 // r.length ≤ b.length }) :=
  if n ≤ b.length then some (b.take n, ⟨b.drop n, by simp⟩) else none

def bigEndian (b : List UInt8) : Nat :=
  b.foldl (fun n x => n * 256 + x.toNat) 0

def toBytes16 (n : UInt16) : List UInt8 :=
  [(n >>> 8).toUInt8, n.toUInt8]

theorem toNat_toUInt16 {n : Nat} (h : n < 2 ^ 16) : n.toUInt16.toNat = n := by
  simp only [Nat.toUInt16_eq, UInt16.toNat_ofNat']
  omega

theorem bigEndian_toBytes16 (n : UInt16) : bigEndian (toBytes16 n) = n.toNat := by
  have := n.toNat_lt
  simp [bigEndian, toBytes16, Nat.shiftRight_eq_div_pow]
  omega

-- A variable-length integer: the two highest bits of the first byte give the length.
def getVarint : (b : List UInt8) → Option (Nat × Rest b)
  | [] => none
  | x :: r =>
    let len := 2 ^ (x.toNat / 64)
    if len ≤ r.length + 1 then
      some (bigEndian ((x :: r).take len) % 2 ^ (8 * len - 2),
        ⟨(x :: r).drop len, by have := Nat.two_pow_pos (x.toNat / 64); simp [len]; omega⟩)
    else
      none

-- Reads entries until nothing is left; the first error ends the loop.
def many {α ε : Type*} (entry : (b : List UInt8) → Except ε (α × Rest b)) : List UInt8 → Except ε (List α)
  | [] => .ok []
  | x :: r => do
    let (a, rest) ← entry (x :: r)
    return a :: (← many entry rest.val)
termination_by b => b.length
decreasing_by exact rest.property

end Octets
