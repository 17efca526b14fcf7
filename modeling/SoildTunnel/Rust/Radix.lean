import SoildTunnel.Rust.Pattern

-- Numbers as texts: `from_str_radix` and `parse` of the unsigned types.
namespace Rust.Text

def digit (radix : Nat) (c : Char) : Option Nat :=
  let v :=
    if '0' ≤ c ∧ c ≤ '9' then c.toNat - 48
    else if 'A' ≤ c ∧ c ≤ 'Z' then c.toNat - 55
    else if 'a' ≤ c ∧ c ≤ 'z' then c.toNat - 87
    else radix
  if v < radix then some v else none

def isNumeral (radix : Nat) (t : Text) : Bool :=
  t ≠ [] ∧ t.all fun c => (digit radix c).isSome

def numeralValue (radix : Nat) (t : Text) : Nat :=
  t.foldl (fun n c => n * radix + (digit radix c).getD 0) 0

def withoutSign : Text → Text
  | '+' :: digits => digits
  | digits => digits

-- A sign may stand before the digits.
def fromStrRadix (width radix : Nat) (t : Text) : Option Nat :=
  let digits := withoutSign t
  if isNumeral radix digits ∧ numeralValue radix digits < 2 ^ width then some (numeralValue radix digits) else none

-- `char::from_u32`.
def charFromU32 (n : Nat) : Option Char :=
  if n.isValidChar then some (Char.ofNat n) else none

-- The texts that spell a number with digits only, with or without zeros in front.
structure Spells (radix : Nat) (t : Text) (n : Nat) : Prop where
  numeral : isNumeral radix t
  value : numeralValue radix t = n

variable {width radix n : Nat} {t : Text}

theorem isAlphanum_of_digit {c : Char} (h : (digit radix c).isSome) : c.isAlphanum := by
  simp only [digit] at h
  simp only [Char.isAlphanum, Char.isAlpha, Char.isUpper, Char.isLower, Char.isDigit, Char.le_def] at h ⊢
  split at h
  case isTrue hd => simp_all
  case isFalse =>
    split at h
    case isTrue hu => simp_all
    case isFalse =>
      split at h
      case isTrue hl => simp_all
      case isFalse => simp at h

theorem Spells.ne_nil (h : Spells radix t n) : t ≠ [] :=
  (of_decide_eq_true h.numeral).1

theorem Spells.isAlphanum (h : Spells radix t n) {c : Char} (hc : c ∈ t) : c.isAlphanum :=
  isAlphanum_of_digit (List.all_eq_true.mp (of_decide_eq_true h.numeral).2 c hc)

theorem Spells.withoutSign (h : Spells radix t n) : withoutSign t = t := by
  unfold Text.withoutSign
  split
  case h_1 digits => exact absurd (h.isAlphanum List.mem_cons_self) (by decide)
  case h_2 => rfl

theorem fromStrRadix_of_spells (h : Spells radix t n) (hn : n < 2 ^ width) : fromStrRadix width radix t = some n := by
  rw [fromStrRadix, h.withoutSign, h.value]
  exact if_pos ⟨h.numeral, hn⟩

theorem charFromU32_toNat (c : Char) : charFromU32 c.toNat = some c := by
  have hv : c.toNat.isValidChar := c.valid
  rw [charFromU32, if_pos hv, Char.ofNat_toNat]

end Rust.Text
