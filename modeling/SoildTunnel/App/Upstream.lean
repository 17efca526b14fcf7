import SoildTunnel.App.Profile
import SoildTunnel.Lib.Regex
import SoildTunnel.Rust.Text

-- The upstream proxy setting on its way from the profile into the engine's environment.
namespace App

open Kotlin

-- The digits of the runtime's regular expressions come from its Unicode tables.
structure Icu where
  digit : Nat → Bool
  digit_ascii {c : Nat} : c < 128 → digit c = (48 ≤ c && c ≤ 57)
  digit_not_whitespace {c : Nat} : digit c → Rust.isWhitespace c = false

def Icu.ascii : Icu where
  digit c := 48 ≤ c && c ≤ 57
  digit_ascii _ := rfl
  digit_not_whitespace {c} h := by
    simp only [Bool.and_eq_true, decide_eq_true_eq] at h
    simp only [Rust.isWhitespace, Bool.or_eq_false_iff, Bool.and_eq_false_iff, decide_eq_false_iff_not]
    omega

-- Regular expressions see code points; half of a surrogate pair counts as one.
def codePoints : Text → List Nat
  | [] => []
  | [c] => [c.toNat]
  | c :: d :: t =>
    if 0xd800 ≤ c ∧ c < 0xdc00 ∧ 0xdc00 ≤ d ∧ d < 0xe000 then
      (0x10000 + (c.toNat - 0xd800) * 0x400 + (d.toNat - 0xdc00)) :: codePoints t
    else
      c.toNat :: codePoints (d :: t)

namespace UpstreamEntry

open Regex

def word (s : String) : Regex Nat :=
  Regex.word (s.toList.map Char.toNat)

-- `[^\s:@/]`
def credential (c : Nat) : Bool :=
  !Rust.isWhitespace c && c ≠ 58 && c ≠ 64 && c ≠ 47

-- `[0-9A-Fa-f:]`
def address (c : Nat) : Bool :=
  (48 ≤ c && c ≤ 57) || (65 ≤ c && c ≤ 70) || (97 ≤ c && c ≤ 102) || c = 58

-- `[A-Za-z0-9._-]`
def name (c : Nat) : Bool :=
  (65 ≤ c && c ≤ 90) || (97 ≤ c && c ≤ 122) || (48 ≤ c && c ≤ 57) || c = 46 || c = 95 || c = 45

def scheme : Regex Nat :=
  opt (seq (alt (word "socks5") (word "http")) (word "://"))

def login : Regex Nat :=
  opt (seq (rep (cls credential) 1 64) (seq (opt (seq (word ":") (rep (cls credential) 0 64))) (word "@")))

def host : Regex Nat :=
  alt (seq (word "[") (seq (rep (cls address) 2 45) (word "]"))) (rep (cls name) 1 253)

end UpstreamEntry

open UpstreamEntry in
def UPSTREAM_ENTRY (icu : Icu) : Regex Nat :=
  .seq scheme (.seq login (.seq host (.seq (word ":") (.rep (.cls icu.digit) 1 5))))

def sanitizedUpstream (icu : Icu) (p : ConnectionProfile) : Option Text :=
  let t := p.upstreamProxy.trim
  if 1 ≤ t.length ∧ t.length ≤ 200 ∧ (UPSTREAM_ENTRY icu).isMatch (codePoints t) then some t else none

-- Half of a surrogate pair has no encoding and is passed on as a question mark.
def scalar (c : Nat) : Char :=
  if 0xd800 ≤ c ∧ c < 0xe000 then '?' else Char.ofNat c

def envText (t : Text) : Rust.Text :=
  (codePoints t).map scalar

-- The variable as the engine process gets it. A value with a NUL character is refused, and then
-- there is no process.
def upstreamEnv (icu : Icu) (p : ConnectionProfile) : Option (Option Rust.Text) :=
  match sanitizedUpstream icu p with
  | none => some none
  | some t => if 0 ∈ t then none else some (some (envText t))

end App
