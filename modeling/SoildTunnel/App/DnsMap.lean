import SoildTunnel.Kotlin.Text
import SoildTunnel.Lib.Lru

-- The cache of names.
namespace App

open Kotlin

structure TunBridge.Platform where
  decode : List UInt8 → Text
  lowercase : Text → Text

namespace DnsMap

open TunBridge (Platform)

structure Entry where
  domain : Text
  expiresAt : Nat
deriving DecidableEq

def MAX_ENTRIES : Nat := 4096
def DEFAULT_TTL_MILLIS : Nat := 300000

abbrev Cache (κ : Type*) := Lru κ (List Entry) MAX_ENTRIES

abbrev dot : UInt16 := 46

def normalizedDomain (pf : Platform) (domain : Text) : Text :=
  pf.lowercase (domain.trim.rdropWhile (· = dot))

section Entries

-- The keys are the texts of addresses, or what they are the texts of.
variable {κ : Type*} [DecidableEq κ]

-- What is done under the lock.
def putEntry (m : Cache κ) (ip : κ) (domain : Text) (now : Nat) : Cache κ :=
  let expiry := now + max 1000 (min 86400000 DEFAULT_TTL_MILLIS)
  let entries := ((m.find? ip).getD []).filter fun e => ¬ (e.expiresAt ≤ now ∨ e.domain = domain)
  let entries := entries ++ [⟨domain, expiry⟩]
  m.put ip (entries.drop (entries.length - 8))

def putName (pf : Platform) (m : Cache κ) (ip : κ) (domain : Text) (now : Nat) : Cache κ :=
  let normalizedDomain := normalizedDomain pf domain
  if normalizedDomain = [] then m else putEntry m ip normalizedDomain now

def get (m : Cache κ) (ip : κ) (now : Nat) : Cache κ × Option Text :=
  match m.find? ip with
  | none => (m, none)
  | some entries =>
    let entries := entries.filter fun e => ¬ e.expiresAt ≤ now
    match entries.getLast? with
    | none => (m.erase ip, none)
    | some e => (m.put ip entries, some e.domain)

end Entries

def put (pf : Platform) (m : Cache Text) (ip domain : Text) (now : Nat) : Cache Text :=
  let normalizedIp := ip.trim
  if normalizedIp = [] then m else putName pf m normalizedIp domain now

inductive Call
  | put (ip domain : Text) (now : Nat)
  | get (ip : Text) (now : Nat)

def Call.now : Call → Nat
  | .put _ _ now | .get _ now => now

def step (pf : Platform) (m : Cache Text) : Call → Cache Text × Option Text
  | .put ip domain now => (put pf m ip domain now, none)
  | .get ip now => get m ip now

end DnsMap

end App
