import SoildTunnel.App.TunDns

-- The name in the first payload of a flow: the server name of a TLS client, or the host of an HTTP request.
namespace App.TrafficSniffer

open Kotlin TunBridge

section Sni

variable (pf : Platform) (data : Bytes)

-- The loop over the extensions. An index past the end is an exception, and then there is no name.
def serverName (extensionsEnd pos : Nat) : Option Text :=
  if h : pos + 4 ≤ extensionsEnd ∧ pos + 4 ≤ data.length then
    (getShort data pos).bind fun extType =>
    (getShort data (pos + 2)).bind fun extLen =>
    if extType = 0 then
      if data.length < pos + 4 + 5 then none
      else
        (getShort data (pos + 4)).bind fun listLen =>
        if data.length < pos + 6 + listLen then none
        else
          (data[pos + 6]?).bind fun nameType =>
          (getShort data (pos + 7)).bind fun nameLen =>
          if nameType = 0 ∧ pos + 9 + nameLen ≤ data.length then
            some (pf.decode ((data.drop (pos + 9)).take nameLen))
          else
            -- The length is added to a position that is already inside of the extension.
            serverName extensionsEnd (pos + 9 + extLen)
    else
      serverName extensionsEnd (pos + 4 + extLen)
  else
    none
termination_by data.length - pos
decreasing_by all_goals omega

def sniffSni : Option Text :=
  if data.length < 43 ∨ data[0]? ≠ some 0x16 ∨ data[5]? ≠ some 0x01 then none
  else
    (data[43]?).bind fun sessionIDLen =>
    let pos := 43 + 1 + sessionIDLen.toNat
    (getShort data pos).bind fun cipherSuiteLen =>
    let pos := pos + 2 + cipherSuiteLen
    (data[pos]?).bind fun compressionMethodLen =>
    let pos := pos + 1 + compressionMethodLen.toNat
    (getShort data pos).bind fun extensionsLen =>
    serverName pf data (pos + 2 + extensionsLen) (pos + 2)

end Sni

-- `split("\r\n")`
def lines : Text → List Text
  | [] => [[]]
  | [c] => [[c]]
  | c :: d :: t =>
    if c = Text.cr ∧ d = Text.lf then [] :: lines t
    else
      match lines (d :: t) with
      | [] => [[c]]
      | l :: ls => (c :: l) :: ls

-- What a letter of "Host:" is compared by when the case is ignored. The long s has the same capital letter.
def fold (c : UInt16) : UInt16 :=
  if c = 0x17f then 115 else Text.lowerAscii c

abbrev colon : UInt16 := 58

def isHost (line : Text) : Bool :=
  (line.take 5).map fold = lit "host:"

def sniffHttpHost (pf : Platform) (data : Bytes) : Option Text :=
  ((lines (pf.decode (data.take 2048))).find? isHost).map fun line =>
    pf.lowercase ((Text.trim (line.drop 5)).takeWhile (· ≠ colon))

def sniffDomain (pf : Platform) (data : Bytes) (port : Nat) : Option Text :=
  if data = [] then none
  else if port = 443 then sniffSni pf data
  else if port = 80 then sniffHttpHost pf data
  else none

end App.TrafficSniffer
