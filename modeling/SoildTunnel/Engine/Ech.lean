import SoildTunnel.Engine.Dns

-- Where the engine finds the keys to encrypt its hello with.
namespace Engine.Dns

open Rust

def RR_HTTPS : UInt16 := 65

def SVCPARAM_ECH : UInt16 := 5

variable (msg : Bytes)

def svcparamsEch (stop pos : Nat) : Option Bytes :=
  if pos + 4 ≤ stop then
    let key := u16At msg pos
    let len := u16At msg (pos + 2)
    if stop < pos + 4 + len then none
    else if key = SVCPARAM_ECH.toNat then some ((msg.drop (pos + 4)).take len)
    else svcparamsEch stop (pos + 4 + len)
  else none
termination_by stop - pos

def parseSvcparamsEch (rdataStart rdlen : Nat) : Option Bytes :=
  let stop := rdataStart + rdlen
  if stop < rdataStart + 2 then none
  else (skipName msg (rdataStart + 2)).bind (svcparamsEch msg stop)

def firstRecord {α : Type} (read : Nat → Nat → Nat → Option α) : Nat → Nat → Option α
  | 0, _ => none
  | n + 1, pos =>
    (skipName msg pos).bind fun pos =>
      let rtype := u16At msg pos
      let rdlen := u16At msg (pos + 8)
      let data := pos + 10
      if msg.length < data ∨ msg.length < data + rdlen then none
      else (read rtype data rdlen).or (firstRecord read n (data + rdlen))

def readEch (rtype data rdlen : Nat) : Option Bytes :=
  if rtype = RR_HTTPS.toNat then parseSvcparamsEch msg data rdlen else none

def parseHttpsEch : Option Bytes :=
  if msg.length < 12 then none
  else (skipQuestions msg (u16At msg 4) 12).bind (firstRecord msg (readEch msg) (u16At msg 6))

end Engine.Dns
