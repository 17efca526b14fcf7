import SoildTunnel.Lib.Delimited

-- Rust strings and the standard library functions on them that the engine uses.
namespace Rust

abbrev Text := List Char

instance : LawfulBEq Text :=
  inferInstance

-- The case mapping rests on Unicode tables. The code relies on it for ASCII texts only.
structure CaseMap where
  toLowercase : Text → Text
  toLowercase_ascii {t : Text} : (∀ c ∈ t, c.toNat < 128) → toLowercase t = t.map Char.toLower

def CaseMap.ascii : CaseMap where
  toLowercase := List.map Char.toLower
  toLowercase_ascii _ := rfl

theorem CaseMap.toLowercase_of_all (cm : CaseMap) {t : Text} (h : t.all (·.toNat < 128)) :
    cm.toLowercase t = t.map Char.toLower :=
  cm.toLowercase_ascii fun c hc => of_decide_eq_true (List.all_eq_true.mp h c hc)

-- The characters with the property `White_Space`.
def isWhitespace (c : Nat) : Bool :=
  (0x09 ≤ c && c ≤ 0x0d) || c = 0x20 || c = 0x85 || c = 0xa0 || c = 0x1680 ||
  (0x2000 ≤ c && c ≤ 0x200a) || c = 0x2028 || c = 0x2029 || c = 0x202f || c = 0x205f || c = 0x3000

namespace Text

def utf8 (t : Text) : List UInt8 :=
  t.flatMap String.utf8EncodeChar

def trim (t : Text) : Text :=
  Delimited.trim (fun c => isWhitespace c.toNat) t

def splitOnce (pat : Text) : Text → Option (Text × Text)
  | [] => if pat.isEmpty then some ([], []) else none
  | c :: cs =>
    if pat.isPrefixOf (c :: cs) then some ([], (c :: cs).drop pat.length)
    else (splitOnce pat cs).map fun (a, b) => (c :: a, b)

theorem splitOnce_singleton (c : Char) (t : Text) : splitOnce [c] t = Delimited.cut c t := by
  induction t
  case nil => rfl
  case cons d t hi =>
    by_cases h : d = c
    case pos => simp [splitOnce, Delimited.cut, h]
    case neg => simp [splitOnce, Delimited.cut, h, Ne.symm h, hi]

def splitCrlf : Text → List Text
  | [] => [[]]
  | '\r' :: '\n' :: t => [] :: splitCrlf t
  | c :: t =>
    match splitCrlf t with
    | [] => [[c]]
    | line :: lines => (c :: line) :: lines

def splitWhitespace (t : Text) : List Text :=
  (t.splitOnP fun c => isWhitespace c.toNat).filter (· ≠ [])

def stripPrefix (pat t : Text) : Option Text :=
  if pat.isPrefixOf t then some (t.drop pat.length) else none

def stripSuffix (pat t : Text) : Option Text :=
  if pat.isSuffixOf t then some (t.take (t.length - pat.length)) else none

-- The first of the lines, which end in a line feed or in both characters.
def firstLine (t : Text) : Text :=
  match Delimited.cut '\n' t with
  | some (line, _) => if line.getLast? = some '\r' then line.dropLast else line
  | none => t

-- All of them. A text that ends in a line feed has no empty line after it, and only a line feed takes
-- a carriage return with it.
def lines (t : Text) : List Text :=
  let pieces := t.splitOn '\n'
  pieces.dropLast.map (fun line => (stripSuffix ['\r'] line).getD line) ++
    (pieces.getLast?.filter (· ≠ [])).toList

def contains (pat t : Text) : Bool :=
  (splitOnce pat t).isSome

def endsWith (pat t : Text) : Bool :=
  pat.isSuffixOf t

def eqIgnoreAsciiCase (t u : Text) : Bool :=
  t.map Char.toLower = u.map Char.toLower

def trimEndMatches (c : Char) (t : Text) : Text :=
  t.rdropWhile (· = c)

def decimal (t : Text) : Option Nat :=
  if t ≠ [] ∧ t.all Char.isDigit then some (t.foldl (fun n c => n * 10 + (c.toNat - 48)) 0) else none

-- `parse::<u16>`, which takes a sign.
def parseU16 (t : Text) : Option UInt16 :=
  let digits := match t with
    | '+' :: ds => ds
    | _ => t
  (decimal digits).bind fun n => if n < 2 ^ 16 then some (UInt16.ofNat n) else none

-- The length of a sequence by its first byte, and the bounds of its second byte.
def sequence (b : UInt8) : Option (Nat × UInt8 × UInt8) :=
  if 0xc2 ≤ b ∧ b ≤ 0xdf then some (2, 0x80, 0xbf)
  else if b = 0xe0 then some (3, 0xa0, 0xbf)
  else if b = 0xed then some (3, 0x80, 0x9f)
  else if 0xe1 ≤ b ∧ b ≤ 0xef then some (3, 0x80, 0xbf)
  else if b = 0xf0 then some (4, 0x90, 0xbf)
  else if 0xf1 ≤ b ∧ b ≤ 0xf3 then some (4, 0x80, 0xbf)
  else if b = 0xf4 then some (4, 0x80, 0x8f)
  else none

-- How many of the bytes continue a sequence of the given length.
def continuation (len : Nat) (lo hi : UInt8) : List UInt8 → Nat
  | [] => 0
  | x :: r =>
    if lo ≤ x ∧ x ≤ hi then
      1 + min (len - 2) (r.takeWhile fun y => 0x80 ≤ y ∧ y ≤ 0xbf).length
    else
      0

-- A sequence that is cut short is replaced as a whole, any other stray byte on its own.
def fromUtf8Lossy : List UInt8 → Text
  | [] => []
  | b :: r =>
    if b < 0x80 then
      Char.ofNat b.toNat :: fromUtf8Lossy r
    else
      match sequence b with
      | none => Char.ofNat 0xfffd :: fromUtf8Lossy r
      | some (len, lo, hi) =>
        let n := continuation len lo hi r
        let c := (r.take n).foldl (fun v x => v * 64 + x.toNat % 64) (b.toNat % 2 ^ (7 - len))
        Char.ofNat (if n + 1 = len then c else 0xfffd) :: fromUtf8Lossy (r.drop n)
termination_by b => b.length
decreasing_by all_goals simp; try omega

def fromUtf8 : List UInt8 → Option Text
  | [] => some []
  | b :: r =>
    if b < 0x80 then
      (fromUtf8 r).map (Char.ofNat b.toNat :: ·)
    else
      match sequence b with
      | none => none
      | some (len, lo, hi) =>
        let n := continuation len lo hi r
        let c := (r.take n).foldl (fun v x => v * 64 + x.toNat % 64) (b.toNat % 2 ^ (7 - len))
        if n + 1 = len then (fromUtf8 (r.drop n)).map (Char.ofNat c :: ·) else none
termination_by b => b.length
decreasing_by all_goals simp; try omega

end Text

end Rust
