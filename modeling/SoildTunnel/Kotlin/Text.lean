import SoildTunnel.Lib.Delimited

-- Kotlin strings and the standard library functions on them that the app's code uses.

namespace Kotlin

open List Delimited

-- A string is a sequence of UTF-16 code units.
abbrev Text := List UInt16

instance : LawfulBEq Text :=
  inferInstance

-- String literals of the source. All of them are in the basic plane.
def lit (s : String) : Text :=
  s.toList.map fun c => UInt16.ofNat c.toNat

namespace Text

abbrev lf : UInt16 := 10
abbrev cr : UInt16 := 13
abbrev comma : UInt16 := 44
abbrev equals : UInt16 := 61
abbrev backslash : UInt16 := 92
abbrev letterN : UInt16 := 110
abbrev pipe : UInt16 := 124

-- `Char.isWhitespace`: the Unicode space, line and paragraph separators, and the control
-- characters that Java counts as white space. None of them lies outside the basic plane.
def isWhitespace (c : UInt16) : Bool :=
  (0x09 ≤ c && c ≤ 0x0d) || (0x1c ≤ c && c ≤ 0x20) || c = 0xa0 || c = 0x1680 ||
  (0x2000 ≤ c && c ≤ 0x200a) || c = 0x2028 || c = 0x2029 || c = 0x202f || c = 0x205f || c = 0x3000

def trim (t : Text) : Text :=
  Delimited.trim isWhitespace t

def isBlank (t : Text) : Bool :=
  t.all isWhitespace

abbrev OneLine (t : Text) : Prop :=
  Delimited.NoBreak cr lf t

def split (sep : UInt16) (t : Text) : List Text :=
  t.splitOn sep

def joinToString (sep : UInt16) (ts : List Text) : Text :=
  [sep].intercalate ts

theorem trim_trim (t : Text) : trim (trim t) = trim t :=
  Delimited.trim_trim t

theorem trim_isInfix (t : Text) : trim t <:+: t :=
  Delimited.trim_isInfix _ t

-- What `split(",").map { trim }.filter { isNotEmpty }` leaves of a text.
def items (t : Text) : List Text :=
  ((split comma t).map trim).filter (· ≠ [])

-- An entry that survives being written into and read back from a comma-separated list.
structure Item (t : Text) : Prop where
  nonempty : t ≠ []
  trimmed  : trim t = t
  noComma  : comma ∉ t
  oneLine  : OneLine t

theorem item_of_mem_items {t x : Text} (ht : OneLine t) (h : x ∈ items t) : Item x := by
  simp only [items, split, mem_filter, mem_map, decide_eq_true_eq] at h
  obtain ⟨⟨y, hy, rfl⟩, hne⟩ := h
  have hsub : ∀ c ∈ trim y, c ∈ y := fun _ hc => (trim_isInfix y).subset hc
  have ⟨hn, hm⟩ := mem_splitOn hy
  exact {
    nonempty := hne
    trimmed  := trim_trim y
    noComma  := fun hc => hn (hsub _ hc)
    oneLine  := ⟨fun hc => ht.left (hm _ (hsub _ hc)), fun hc => ht.right (hm _ (hsub _ hc))⟩
  }

theorem items_joinToString {ts : List Text} (h : ∀ t ∈ ts, Item t) : items (joinToString comma ts) = ts := by
  cases ts
  case nil => rfl
  case cons t ts =>
    have hs : (joinToString comma (t :: ts)).splitOn comma = t :: ts :=
      splitOn_intercalate comma (fun x hx => (h x hx).noComma) (by simp)
    have ht : (t :: ts).map trim = t :: ts := by
      rw [map_congr_left fun x hx => (h x hx).trimmed, map_id']
    rw [items, split, hs, ht, filter_eq_self]
    exact fun x hx => by simpa using (h x hx).nonempty

-- The zero of each decimal digit block of the basic plane; the other nine digits follow it.
def zeroDigits : List UInt16 :=
  [0x30, 0x660, 0x6f0, 0x7c0, 0x966, 0x9e6, 0xa66, 0xae6, 0xb66, 0xbe6, 0xc66, 0xce6, 0xd66,
   0xde6, 0xe50, 0xed0, 0xf20, 0x1040, 0x1090, 0x17e0, 0x1810, 0x1946, 0x19d0, 0x1a80, 0x1a90,
   0x1b50, 0x1bb0, 0x1c40, 0x1c50, 0xa620, 0xa8d0, 0xa900, 0xa9d0, 0xa9f0, 0xaa50, 0xabf0, 0xff10]

-- `Character.digit(c, 10)`
def digitOf (c : UInt16) : Option Nat :=
  zeroDigits.findSome? fun z => if z ≤ c ∧ c ≤ z + 9 then some (c - z).toNat else none

def number (t : Text) : Option Nat :=
  if t = [] then none else (t.mapM digitOf).map fun ds => Nat.ofDigits 10 ds.reverse

def int32? (i : Int) : Option Int32 :=
  if -2 ^ 31 ≤ i ∧ i < 2 ^ 31 then some (Int32.ofInt i) else none

def toIntOrNull : Text → Option Int32
  | []      => none
  | c :: cs =>
    -- Every sign character comes before the digit zero.
    if c < 48 then
      if c = 45 then (number cs).bind fun n => int32? (-n)
      else if c = 43 then (number cs).bind fun n => int32? n
      else none
    else (number (c :: cs)).bind fun n => int32? n

def decimal (n : Nat) : Text :=
  if n = 0 then [48] else (Nat.digits 10 n).reverse.map fun d => 48 + UInt16.ofNat d

-- `Int.toString`
def ofInt (i : Int32) : Text :=
  if i.toInt < 0 then 45 :: decimal i.toInt.natAbs else decimal i.toInt.natAbs

def ofBool (b : Bool) : Text :=
  if b then lit "true" else lit "false"

def toBooleanStrictOrNull (t : Text) : Option Bool :=
  if t = lit "true" then some true
  else if t = lit "false" then some false
  else none

def lowerAscii (c : UInt16) : UInt16 :=
  if 65 ≤ c ∧ c ≤ 90 then c + 32 else c

-- `toBoolean` compares ignoring case; no character outside ASCII folds to a letter of "true".
def toBoolean (t : Text) : Bool :=
  t.map lowerAscii = lit "true"

theorem digitOf_ascii : ∀ d < 10, digitOf (48 + UInt16.ofNat d) = some d := by
  decide

theorem not_ascii_lt_zero : ∀ d < 10, ¬48 + UInt16.ofNat d < 48 := by
  decide

theorem mapM_digitOf {ds : List Nat} (h : ∀ d ∈ ds, d < 10) :
    (ds.map fun d => 48 + UInt16.ofNat d).mapM digitOf = some ds := by
  induction ds
  case nil => rfl
  case cons d ds hi =>
    have hd := digitOf_ascii d (h d (by simp))
    have hi := hi fun x hx => h x (mem_cons_of_mem _ hx)
    simp [hd, hi]

theorem decimal_ne_nil (n : Nat) : decimal n ≠ [] := by
  unfold decimal
  split
  case isTrue    => simp
  case isFalse h => simpa [Nat.digits_ne_nil_iff_ne_zero] using h

theorem number_decimal (n : Nat) : number (decimal n) = some n := by
  simp only [number, decimal_ne_nil, if_false]
  unfold decimal
  split
  case isTrue h => subst h; decide
  case isFalse =>
    have hd : ∀ d ∈ (Nat.digits 10 n).reverse, d < 10 := fun d hd =>
      Nat.digits_lt_base (by decide) (mem_reverse.mp hd)
    rw [mapM_digitOf hd, Option.map_some, reverse_reverse, Nat.ofDigits_digits]

theorem decimal_head {n : Nat} {c : UInt16} {cs : Text} (h : decimal n = c :: cs) : ¬c < 48 := by
  have hc : c ∈ decimal n := h ▸ mem_cons_self
  unfold decimal at hc
  split at hc
  case isTrue  => simp at hc; simp [hc]
  case isFalse =>
    simp only [mem_map, mem_reverse] at hc
    obtain ⟨d, hd, rfl⟩ := hc
    exact not_ascii_lt_zero d <| Nat.digits_lt_base (by decide) hd

theorem int32?_toInt (i : Int32) : int32? i.toInt = some i := by
  have h₁ := i.le_toInt
  have h₂ := i.toInt_lt
  rw [int32?, if_pos ⟨h₁, h₂⟩, Int32.ofInt_toInt]

theorem toIntOrNull_ofInt (i : Int32) : toIntOrNull (ofInt i) = some i := by
  unfold ofInt
  split
  case isTrue h =>
    have hi : (-(i.toInt.natAbs : Int)) = i.toInt := by omega
    rw [toIntOrNull, if_pos (by decide), if_pos rfl, number_decimal, Option.bind_some, hi,
      int32?_toInt]
  case isFalse h =>
    have hi : (i.toInt.natAbs : Int) = i.toInt := by omega
    cases hd : decimal i.toInt.natAbs
    case nil => exact absurd hd (decimal_ne_nil _)
    case cons c cs =>
      have hn := hd ▸ number_decimal i.toInt.natAbs
      rw [toIntOrNull, if_neg (decimal_head hd), hn, Option.bind_some, hi, int32?_toInt]

theorem ofInt_oneLine (i : Int32) : (ofInt i).OneLine := by
  have hd : ∀ n, (decimal n).OneLine := by
    intro n
    have hne : ∀ d < 10, 48 + UInt16.ofNat d ≠ cr ∧ 48 + UInt16.ofNat d ≠ lf := by decide
    unfold decimal
    split
    case isTrue  => decide
    case isFalse =>
      simp only [OneLine, Delimited.NoBreak, mem_map, mem_reverse, not_exists, not_and]
      have hlt : ∀ d ∈ Nat.digits 10 n, d < 10 := fun d => Nat.digits_lt_base (by decide)
      exact ⟨fun d hd => (hne d (hlt d hd)).left, fun d hd => (hne d (hlt d hd)).right⟩
  unfold ofInt
  split
  case isTrue  => exact noBreak_cons.mpr ⟨by decide, hd _⟩
  case isFalse => exact hd _

theorem ofBool_oneLine (b : Bool) : (ofBool b).OneLine := by
  cases b <;> decide

theorem joinToString_oneLine {ts : List Text} (h : ∀ t ∈ ts, OneLine t) : OneLine (joinToString comma ts) := by
  induction ts
  case nil => exact noBreak_nil
  case cons t ts hi =>
    have ht := h t (by simp)
    have hi := hi fun x hx => h x (mem_cons_of_mem _ hx)
    cases ts
    case nil  => simpa [joinToString, List.intercalate] using ht
    case cons =>
      simp only [joinToString, List.intercalate, intersperse_cons_cons, flatten_cons] at hi ⊢
      exact ht.append <| .append (by decide) hi

theorem toBooleanStrictOrNull_ofBool (b : Bool) : toBooleanStrictOrNull (ofBool b) = some b := by
  cases b <;> decide

end Text

-- An enumeration lists its values, which have distinct ASCII names without line breaks.
class Enum (α : Type) where
  values         : List α
  name           : α → String
  mem_values     : ∀ a, a ∈ values := by rintro (_ | _) <;> decide
  name_injective : ∀ a ∈ values, ∀ b ∈ values, lit (name a) = lit (name b) → a = b := by decide
  name_oneLine   : ∀ a ∈ values, (lit (name a)).OneLine := by decide

namespace Enum

variable {α : Type} [Enum α]

-- `enumValueOf`, or null for a name that the enumeration does not have
def enumOr (t : Text) : Option α :=
  (values (α := α)).find? fun a => lit (name a) = t

theorem enumOr_name (a : α) : enumOr (lit (name a)) = some a := by
  cases h : enumOr (α := α) (lit (name a))
  case none =>
    have := List.find?_eq_none.mp h a (mem_values a)
    simp at this
  case some b =>
    have hb := List.find?_some h
    have hm := mem_of_find?_eq_some h
    simp only [decide_eq_true_eq] at hb
    rw [name_injective b hm a (mem_values a) hb]

end Enum

-- The case mapping of the runtime's Unicode tables, of which the code only relies on line breaks
-- not appearing out of nowhere.
structure CaseMap where
  uppercase         : Text → Text
  uppercase_oneLine : ∀ {t}, t.OneLine → (uppercase t).OneLine

namespace CaseMap

def upperAscii (c : UInt16) : UInt16 :=
  if 97 ≤ c ∧ c ≤ 122 then c - 32 else c

theorem upperAscii_ne {c d : UInt16} (h : d < 65) (hc : c ≠ d) : upperAscii c ≠ d := by
  unfold upperAscii
  split
  case isTrue  => grind
  case isFalse => exact hc

-- The case mapping on ASCII texts.
def ascii : CaseMap where
  uppercase := List.map upperAscii
  uppercase_oneLine {t} h := by
    simp only [Text.OneLine, Delimited.NoBreak, mem_map, not_exists, not_and]
    exact ⟨fun c hc => upperAscii_ne (by decide) fun he => h.left (he ▸ hc),
           fun c hc => upperAscii_ne (by decide) fun he => h.right (he ▸ hc)⟩

end CaseMap
end Kotlin
