import SoildTunnel.Engine.Net
import SoildTunnel.Lib.Octets
import SoildTunnel.Rust.Text

-- How the standard library reads and writes addresses.
namespace Engine

open Rust

-- A reader takes what it understands from the front of a text, or nothing at all.
abbrev Reader (α : Type) := Text → Option (α × Text)

namespace Reader

def givenChar (c : Char) : Reader Unit
  | d :: t => if d = c then some ((), t) else none
  | [] => none

-- Between two items there is a separator, before the first there is none.
def separator {α : Type} (sep : Char) (index : Nat) (inner : Reader α) : Reader α := fun t =>
  if index = 0 then inner t else (givenChar sep t).bind fun (_, t) => inner t

def toDigit (radix : Nat) (c : Char) : Option Nat :=
  let d :=
    if '0' ≤ c ∧ c ≤ '9' then c.toNat - 48
    else if 'a' ≤ c ∧ c ≤ 'z' then c.toNat - 87
    else if 'A' ≤ c ∧ c ≤ 'Z' then c.toNat - 55
    else radix
  if d < radix then some d else none

def number (radix maxDigits bound : Nat) (allowZeroPrefix : Bool) : Reader Nat := fun t =>
  let digits := t.takeWhile fun c => (toDigit radix c).isSome
  let value := digits.foldl (fun n c => n * radix + (toDigit radix c).getD 0) 0
  if digits = [] ∨ maxDigits < digits.length ∨ bound ≤ value then none
  else if !allowZeroPrefix && digits.head? = some '0' && 1 < digits.length then none
  else some (value, t.drop digits.length)

def octet : Reader Nat :=
  number 10 3 256 false

def ipv4Addr : Reader Ipv4Addr := fun t => do
  let (a, t) ← separator '.' 0 octet t
  let (b, t) ← separator '.' 1 octet t
  let (c, t) ← separator '.' 2 octet t
  let (d, t) ← separator '.' 3 octet t
  return (.new (.ofNat a) (.ofNat b) (.ofNat c) (.ofNat d), t)

-- Up to `left` groups, and whether the last two of them were written as an IPv4 address, for which
-- two must be left.
def groups : (left index : Nat) → Text → List Nat × Bool × Text
  | 0, _, t => ([], false, t)
  | left + 1, index, t =>
    match if left = 0 then none else separator ':' index ipv4Addr t with
    | some (ip, t) =>
      ([Octets.bigEndian (ip.toList.take 2), Octets.bigEndian (ip.toList.drop 2)], true, t)
    | none =>
      match separator ':' index (number 16 4 (2 ^ 16) true) t with
      | some (g, t') =>
        let (gs, v4, t') := groups left (index + 1) t'
        (g :: gs, v4, t')
      | none => ([], false, t)

end Reader

namespace Ipv6Addr

def ofSegments (gs : List Nat) : Ipv6Addr :=
  .ofFn fun i => .ofNat (gs.getD (i / 2) 0 / (if i.val % 2 = 0 then 256 else 1))

def segments (ip : Ipv6Addr) : List Nat :=
  (List.range 8).map fun i => Octets.bigEndian ((ip.toList.drop (2 * i)).take 2)

def isMapped (ip : Ipv6Addr) : Bool :=
  ip.toList.take 12 = List.replicate 10 0 ++ [255, 255]

def toIpv4Mapped (ip : Ipv6Addr) : Option Ipv4Addr :=
  if ip.isMapped then some (.ofFn fun i => ip.get ⟨i + 12, by omega⟩) else none

end Ipv6Addr

namespace Reader

-- The groups before a `::` and those after it; the former must not end in an IPv4 address.
def ipv6Addr : Reader Ipv6Addr := fun t =>
  let (head, v4, t) := groups 8 0 t
  if head.length = 8 then some (.ofSegments head, t)
  else if v4 then none
  else do
    let (_, t) ← givenChar ':' t
    let (_, t) ← givenChar ':' t
    let (tail, _, t) := groups (7 - head.length) 0 t
    return (.ofSegments (head ++ List.replicate (8 - head.length - tail.length) 0 ++ tail), t)

def ipAddr : Reader IpAddr := fun t =>
  match ipv4Addr t with
  | some (ip, t) => some (.v4 ip, t)
  | none => (ipv6Addr t).map fun (ip, t) => (.v6 ip, t)

def port : Reader UInt16 := fun t => do
  let (_, t) ← givenChar ':' t
  let (n, t) ← number 10 t.length (2 ^ 16) true t
  return (.ofNat n, t)

def socketAddrV4 : Reader SocketAddr := fun t => do
  let (ip, t) ← ipv4Addr t
  let (port, t) ← port t
  return (⟨.v4 ip, port⟩, t)

def scopeId : Reader Nat := fun t => do
  let (_, t) ← givenChar '%' t
  number 10 t.length (2 ^ 32) true t

-- A scope identifier is read, but an address here has none.
def socketAddrV6 : Reader SocketAddr := fun t => do
  let (_, t) ← givenChar '[' t
  let (ip, t) ← ipv6Addr t
  let t := (scopeId t).elim t Prod.snd
  let (_, t) ← givenChar ']' t
  let (port, t) ← port t
  return (⟨.v6 ip, port⟩, t)

def socketAddr : Reader SocketAddr := fun t =>
  (socketAddrV4 t).or (socketAddrV6 t)

end Reader

namespace Ipv6Addr

structure Span where
  start : Nat := 0
  len : Nat := 0

-- The first of the longest runs of zeroes.
def zeroes (segments : List Nat) : Span :=
  let (longest, _) := segments.zipIdx.foldl (fun (longest, current) (segment, i) =>
    if segment = 0 then
      let current : Span := ⟨if current.len = 0 then i else current.start, current.len + 1⟩
      (if longest.len < current.len then current else longest, current)
    else
      (longest, {})) (({} : Span), ({} : Span))
  longest

def fmtSubslice (segments : List Nat) : Text :=
  [':'].intercalate (segments.map (Nat.toDigits 16))

end Ipv6Addr

def Ipv4Addr.display (ip : Ipv4Addr) : Text :=
  ['.'].intercalate (ip.toList.map fun b => Nat.toDigits 10 b.toNat)

def Ipv6Addr.display (ip : Ipv6Addr) : Text :=
  match ip.toIpv4Mapped with
  | some v4 => "::ffff:".toList ++ v4.display
  | none =>
    let z := zeroes ip.segments
    if 1 < z.len then
      fmtSubslice (ip.segments.take z.start) ++ "::".toList ++
        fmtSubslice (ip.segments.drop (z.start + z.len))
    else
      fmtSubslice ip.segments

def IpAddr.display : IpAddr → Text
  | .v4 ip => ip.display
  | .v6 ip => ip.display

-- `parse::<IpAddr>`: the whole text must be read.
def parseIp (t : Text) : Option IpAddr :=
  match Reader.ipAddr t with
  | some (ip, []) => some ip
  | _ => none

def parseSocketAddr (t : Text) : Option SocketAddr :=
  match Reader.socketAddr t with
  | some (addr, []) => some addr
  | _ => none

end Engine
