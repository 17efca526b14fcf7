import SoildTunnel.Engine.Addr

-- Routing rules: which connections are blocked, which bypass the tunnel.
namespace Engine

open Rust

inductive Action
  | proxy
  | direct
  | block
deriving DecidableEq

inductive Host
  | domain (name : Text)
  | ip (ip : IpAddr)
deriving DecidableEq

-- A compiled pattern is the set of names it is found in, and a network that of its addresses.
inductive Matcher
  | domainSuffix (suffix : Text)
  | domainFull (full : Text)
  | domainKeyword (needle : Text)
  | domainRegex (isMatch : Text → Bool)
  | net (contains : IpAddr → Bool)
  | ports (lo hi : UInt16)
  | privateHost

namespace Matcher

variable (cm : CaseMap)

def matchesName : Matcher → Text → Bool
  | .ports .., _ | .net _, _ => false
  | .privateHost, name => Text.eqIgnoreAsciiCase name "localhost".toList
  | .domainSuffix suffix, name =>
    let name := cm.toLowercase name
    name = suffix || Text.endsWith ('.' :: suffix) name
  | .domainFull full, name => Text.eqIgnoreAsciiCase name full
  | .domainKeyword needle, name => Text.contains needle (cm.toLowercase name)
  | .domainRegex isMatch, name => isMatch name

def matchesIp : Matcher → IpAddr → Bool
  | .privateHost, ip => isPrivate ip
  | .net contains, ip => contains ip
  | _, _ => false

def matchesAt : Matcher → Host → UInt16 → Bool
  | .ports lo hi, _, port => port ≥ lo && port ≤ hi
  | m, .domain name, _ => m.matchesName cm name
  | m, .ip ip, _ => m.matchesIp ip

def isDomain : Matcher → Bool
  | .domainSuffix _ | .domainFull _ | .domainKeyword _ | .domainRegex _ => true
  | _ => false

end Matcher

structure RuleSyntax where
  regex : Text → Option (Text → Bool)
  ipNet : Text → Option (IpAddr → Bool)

def normalizeDomain (cm : CaseMap) (value : Text) : Option Text :=
  let cleaned := Text.trimEndMatches '.' ((value.trim.dropWhile (· = '*')).dropWhile (· = '.'))
  let cleaned := cm.toLowercase cleaned
  if cleaned = [] then none else some cleaned

-- A single address is a network of its own.
def parseNet (rs : RuleSyntax) (value : Text) : Option (IpAddr → Bool) :=
  (rs.ipNet value.trim).or ((parseIp value.trim).map fun addr ip => addr = ip)

def parsePorts (value : Text) : Option (UInt16 × UInt16) :=
  match Text.splitOnce ['-'] value.trim with
  | some (lo, hi) => do
    let lo ← Text.parseU16 lo.trim
    let hi ← Text.parseU16 hi.trim
    return if hi < lo then (hi, lo) else (lo, hi)
  | none => (Text.parseU16 value.trim).map fun single => (single, single)

-- What stands before the first colon is the kind of the rule, unless it looks like an address.
def ruleKind (cm : CaseMap) (entry : Text) : Text × Text :=
  match Text.splitOnce [':'] entry with
  | some (kind, value) =>
    if '.' ∉ kind ∧ '/' ∉ kind then (cm.toLowercase kind.trim, value.trim) else ([], entry)
  | none => ([], entry)

def Matcher.parse (cm : CaseMap) (rs : RuleSyntax) (entry : Text) : Option Matcher :=
  let entry := entry.trim
  if entry = [] ∨ entry.head? = some '#' then none
  else
    let (kind, value) := ruleKind cm entry
    if kind = "domain".toList ∨ kind = "suffix".toList then (normalizeDomain cm value).map .domainSuffix
    else if kind = "full".toList ∨ kind = "exact".toList then (normalizeDomain cm value).map .domainFull
    else if kind = "keyword".toList then
      let needle := cm.toLowercase value.trim
      if needle = [] then none else some (.domainKeyword needle)
    else if kind = "regexp".toList ∨ kind = "regex".toList then (rs.regex value).map .domainRegex
    else if kind = "ip".toList ∨ kind = "cidr".toList then (parseNet rs value).map .net
    else if kind = "port".toList then (parsePorts value).map fun (lo, hi) => .ports lo hi
    else if kind = "geoip".toList ∨ kind = "geosite".toList then
      if Text.eqIgnoreAsciiCase value "private".toList then some .privateHost else none
    else if kind = [] then
      if Text.eqIgnoreAsciiCase value "private".toList then some .privateHost
      else ((parseNet rs value).map .net).or ((normalizeDomain cm value).map .domainSuffix)
    else none

structure RuleSet where
  block : List Matcher := []
  direct : List Matcher := []

namespace RuleSet

variable (cm : CaseMap) (set : RuleSet)

def hasDomainRules : Bool :=
  (set.block ++ set.direct).any Matcher.isDomain

def decide (host : Host) (port : UInt16) : Action :=
  if set.block.any (·.matchesAt cm host port) then .block
  else if set.direct.any (·.matchesAt cm host port) then .direct
  else .proxy

def parseList (rs : RuleSyntax) (raw : Text) : List Matcher :=
  (raw.splitOnP fun c => c = '\n' || c = ',' || c = ';').filterMap (Matcher.parse cm rs)

def parse (rs : RuleSyntax) (block direct : Text) : RuleSet where
  block := parseList cm rs block
  direct := parseList cm rs direct

end RuleSet

end Engine
