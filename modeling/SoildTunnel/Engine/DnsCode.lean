import SoildTunnel.Engine.Ech
import SoildTunnel.Engine.Masque
import SoildTunnel.Lib.Checked

-- The readers of DNS messages with every index, slice and sum that they make.
namespace Engine.Dns.Code

open Rust Checked

variable {width : Nat} (buf : Slice width)

-- `u16::from_be_bytes` of two bytes that are indexed.
def u16 (pos : Nat) : Code Nat := do
  let hi ← buf.index pos
  let lo ← buf.index (← add width pos 1)
  return hi.toNat * 256 + lo.toNat

-- Leaving early stands for `return false`.
def matchLabels : List Text → Nat → Code Nat
  | [], pos => pure pos
  | label :: labels, pos =>
    if label = [] then matchLabels labels pos
    else do
      let len ← buf.get pos
      require (len.toNat = label.utf8.length)
      let pos ← add width pos 1
      let stop ← checkedAdd width pos len.toNat
      require (stop ≤ buf.length)
      require (eqIgnoreAsciiCase (← buf.slice pos stop) label.utf8)
      matchLabels labels stop

def dnsResponseMatches (expectedId : UInt16) (expectedName : Text) (expectedQtype : UInt16) : Code Unit := do
  require (12 ≤ buf.length)
  require ((← u16 buf 0) = expectedId.toNat)
  require ((← buf.index 2) &&& 0x80 ≠ 0)
  require ((← u16 buf 4) = 1)
  let pos ← matchLabels buf (expectedName.splitOn '.') 12
  require ((← buf.get pos) = 0)
  let pos ← add width pos 1
  require ((← add width pos 4) ≤ buf.length)
  require ((← u16 buf pos) = expectedQtype.toNat)

-- The loop ends after as many turns at most as there are bytes, and one.
def skipName : Nat → Nat → Code Nat
  | 0, _ => fault .endless
  | fuel + 1, pos => do
    let len ← buf.get pos
    if len &&& 0xc0 = 0xc0 then add width pos 2
    else if len = 0 then add width pos 1
    else skipName fuel (← add width pos (← add width 1 len.toNat))

def skipQuestions : Nat → Nat → Code Nat
  | 0, pos => pure pos
  | n + 1, pos => do
    let pos ← skipName buf (buf.length + 1) pos
    skipQuestions n (← checkedAdd width pos 4)

-- A reader that leaves early lets the loop go on.
def firstRecord {α : Type} (read : Nat → Nat → Nat → Code α) : Nat → Nat → Code α
  | 0, _ => failure
  | n + 1, pos => do
    let pos ← skipName buf (buf.length + 1) pos
    require ((← add width pos 10) ≤ buf.length)
    let rtype ← u16 buf pos
    let rdlen ← u16 buf (← add width pos 8)
    let data ← add width pos 10
    require ((← add width data rdlen) ≤ buf.length)
    read rtype data rdlen <|> (add width data rdlen >>= firstRecord read n)

def parse {α : Type} (read : Nat → Nat → Nat → Code α) : Code α := do
  require (12 ≤ buf.length)
  let qd ← u16 buf 4
  let an ← u16 buf 6
  let pos ← skipQuestions buf qd 12
  firstRecord buf read an pos

def readAddress (rtype data rdlen : Nat) : Code IpAddr := do
  require (rtype = 1 ∧ rdlen = 4)
  return .v4 (.new (← buf.index data) (← buf.index (← add width data 1)) (← buf.index (← add width data 2))
    (← buf.index (← add width data 3)))

def parseDnsA : Code IpAddr :=
  parse buf (readAddress buf)

-- Every turn takes four bytes at least.
def svcparamsEch (stop : Nat) : Nat → Nat → Code Bytes
  | 0, _ => fault .endless
  | fuel + 1, pos => do
    require ((← add width pos 4) ≤ stop)
    let key ← u16 buf pos
    let len ← u16 buf (← add width pos 2)
    let pos ← add width pos 4
    require ((← add width pos len) ≤ stop)
    if key = SVCPARAM_ECH.toNat then buf.slice pos (← add width pos len)
    else svcparamsEch stop fuel (← add width pos len)

def parseSvcparamsEch (rdataStart rdlen : Nat) : Code Bytes := do
  let stop ← add width rdataStart rdlen
  require ((← add width rdataStart 2) ≤ stop)
  let pos ← skipName buf (buf.length + 1) (← add width rdataStart 2)
  svcparamsEch buf stop (buf.length + 1) pos

def readEch (rtype data rdlen : Nat) : Code Bytes := do
  require (rtype = RR_HTTPS.toNat)
  parseSvcparamsEch buf data rdlen

def parseHttpsEch : Code Bytes :=
  parse buf (readEch buf)

end Engine.Dns.Code
