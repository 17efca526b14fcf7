import SoildTunnel.App.Args
import SoildTunnel.Lib.Distinct

-- Smart Auto: from what is known of a network to the strategies that are tried on it, in their order.
namespace App

open Kotlin

deriving instance DecidableEq for ConnectionProfile

def Noize.ordinal : Noize → Nat
  | .off => 0
  | .light => 1
  | .firewall => 2
  | .balanced => 3
  | .gfw => 4
  | .aggressive => 5

def ConnectionProfile.connectTimeoutMs (p : ConnectionProfile) : Nat :=
  if p.protocol = .tor then 300000
  else if p.protocol = .tuic then 30000
  else if p.hasManualPeer then 45000
  else
    match p.scanMode with
    | .turbo => 60000
    | .balanced => 150000
    | .stealth => 240000
    | .thorough => 300000
    | .ironclad => 360000

namespace SmartAuto

inductive DpiClass
  | open
  | sniFiltering
  | udpThrottled
  | hostile
deriving DecidableEq

def DpiClass.name : DpiClass → Text
  | .open => lit "OPEN"
  | .sniFiltering => lit "SNI_FILTERING"
  | .udpThrottled => lit "UDP_THROTTLED"
  | .hostile => lit "HOSTILE"

structure NetworkFingerprint where
  dpiClass : DpiClass
  operatorName : Text
  iranCellular : Bool
  -- Negative when the range does not answer.
  edgeLatencyMs : List (Text × Int)
  v6EdgeOk : Bool

structure AutoCandidate where
  profile : ConnectionProfile
  timeoutMs : Nat
  label : Text
deriving DecidableEq

-- `StrategyMemo.Recipe`: what is remembered of a strategy that won.
structure Recipe where
  protocol : Protocol
  noize : Noize
  masqueHttp2 : Bool
  fragment : Bool
  ech : Bool
  range : Text
  wonAt : Int

def recipeOf (won : ConnectionProfile) (now : Int) : Recipe where
  protocol := won.protocol
  noize := won.noize
  masqueHttp2 := won.masqueHttp2
  fragment := won.fragment
  ech := won.ech
  range := if won.endpointMode = .manualRange then won.manualRange else []
  wonAt := now

-- The names of the constants are ASCII.
def lowercase (name : String) : Text :=
  lit (name.map Char.toLower)

structure Rung where
  proto : Protocol
  noize : Noize
  h2 : Bool := false
  frag : Bool := false
  ech : Bool := false
  dual : Bool := false
  forceHunt : Bool := false

section Candidate

variable (user : ConnectionProfile) (fp : NetworkFingerprint)

def carriedOuter (r : Rung) : Bool :=
  let hunt := r.proto = .soild && (user.soildHunt || r.forceHunt)
  r.proto = .masque || hunt || (r.proto = .gool && user.goolMode = .onMasque)

-- The stronger obfuscation of the two, but not too strong for a tunnel that carries another one.
def mergedNoize (r : Rung) : Noize :=
  let mergedNoize := if user.noize.ordinal ≥ r.noize.ordinal then user.noize else r.noize
  let mergedNoize := if mergedNoize = .off ∧ fp.iranCellular then .light else mergedNoize
  if carriedOuter user r ∧ mergedNoize.ordinal > Noize.firewall.ordinal then .firewall else mergedNoize

def mergedProfile (r : Rung) : ConnectionProfile :=
  { user with
    protocol := r.proto
    noize := mergedNoize user fp r
    masqueHttp2 := user.masqueHttp2 || (r.h2 && r.proto = .masque)
    fragment := user.fragment || r.frag
    ech := user.ech || r.ech
    ipVersion := if r.dual then .both else user.ipVersion
    soildHunt := if r.proto = .soild ∧ r.forceHunt then true else user.soildHunt
    scanMode := .turbo }

def narrow (ranges : Text) (keepUserEndpoint : Bool) (p : ConnectionProfile) : ConnectionProfile :=
  if !keepUserEndpoint ∧ ranges ≠ [] then { p with endpointMode := .manualRange, manualRange := ranges } else p

-- The outer scan of a tunnel that carries another one is never narrowed.
def release (proto : Protocol) (p : ConnectionProfile) : ConnectionProfile :=
  if proto = .gool ∧ p.goolMode = .onMasque ∨ proto = .soild ∧ p.soildHunt then
    { p with endpointMode := .auto, manualRange := [] }
  else
    p

def candidateProfile (ranges : Text) (keepUserEndpoint : Bool) (r : Rung) : ConnectionProfile :=
  release r.proto (narrow ranges keepUserEndpoint (mergedProfile user fp r))

def candidateFor (ranges : Text) (keepUserEndpoint : Bool) (r : Rung) : AutoCandidate :=
  let p := candidateProfile user fp ranges keepUserEndpoint r
  { profile := p
    timeoutMs := p.connectTimeoutMs
    label := lit (Enum.name r.proto) ++ lit " · noize=" ++ lowercase (Enum.name p.noize) ++
      (if p.masqueHttp2 then lit " · h2" else []) ++
      (if p.fragment then lit " · fragment" else []) ++
      (if p.ech then lit " · ech" else []) ++
      (if p.ipVersion = .both then lit " · dual" else []) ++
      (if !keepUserEndpoint ∧ ranges ≠ [] then lit " · ranges[" ++ ranges ++ lit "]" else []) ++
      lit " · scan=turbo" }

end Candidate

def firstRung : DpiClass → Rung
  | .open => { proto := .wireguard, noize := .off, dual := true }
  | .sniFiltering => { proto := .wireguard, noize := .balanced, dual := true }
  | .udpThrottled => { proto := .masque, noize := .light, h2 := true, frag := true, ech := true }
  | .hostile => { proto := .masque, noize := .gfw, h2 := true, frag := true, ech := true }

def otherRungs : DpiClass → List Rung
  | .open => [
    { proto := .masque, noize := .off, dual := true },
    { proto := .gool, noize := .light }]
  | .sniFiltering => [
    { proto := .gool, noize := .balanced },
    { proto := .masque, noize := .firewall, frag := true, ech := true }]
  | .udpThrottled => [
    { proto := .soild, noize := .firewall, forceHunt := true },
    { proto := .gool, noize := .aggressive },
    { proto := .wireguard, noize := .gfw }]
  | .hostile => [
    { proto := .soild, noize := .gfw, forceHunt := true },
    { proto := .gool, noize := .aggressive },
    { proto := .gool, noize := .gfw, frag := true, ech := true },
    { proto := .wireguard, noize := .gfw }]

-- The two fastest ranges, unless one is pinned.
def bestRanges (fp : NetworkFingerprint) (stickyRange : Option Text) : Text :=
  let reachable := (fp.edgeLatencyMs.filter fun e => 0 ≤ e.2).mergeSort fun a b => a.2 ≤ b.2
  let bestRanges := (lit ", ").intercalate ((reachable.take 2).map Prod.fst)
  match stickyRange with
  | some range => if range.isBlank then bestRanges else range.trim
  | none => bestRanges

section Plan

variable (user : ConnectionProfile) (fp : NetworkFingerprint) (stickyRange : Option Text)

def keepUserEndpoint : Bool :=
  user.endpointMode ≠ .auto

-- `unlockDual`: both families only where IPv6 answers, and for a user who has IPv4 alone.
def unlocked (r : Rung) : Rung :=
  { r with dual := fp.v6EdgeOk && r.dual && user.ipVersion = .v4 }

def rung (r : Rung) : AutoCandidate :=
  candidateFor user fp (bestRanges fp stickyRange) (keepUserEndpoint user) (unlocked user fp r)

def memoRung (memo : Recipe) : AutoCandidate :=
  let remembered := candidateFor user fp memo.range.trim (keepUserEndpoint user) {
    proto := memo.protocol
    noize := memo.noize
    h2 := memo.masqueHttp2
    frag := memo.fragment
    ech := memo.ech
    forceHunt := memo.protocol = .soild }
  { remembered with label := remembered.label ++ lit " · remembered winner" }

-- The last resort: the first strategy over all ranges that the engine knows.
def fallback : AutoCandidate :=
  let fbProfile := { (rung user fp stickyRange (firstRung fp.dpiClass)).profile with scanMode := user.scanMode }
  let fbProfile :=
    if keepUserEndpoint user then fbProfile
    else { fbProfile with endpointMode := .auto, manualRange := user.manualRange }
  { profile := fbProfile
    timeoutMs := fbProfile.connectTimeoutMs
    label := lit (Enum.name fbProfile.protocol) ++ lit " · noize=" ++ lowercase (Enum.name fbProfile.noize) ++
      lit " · full built-in ranges · scan=" ++ lowercase (Enum.name user.scanMode) ++ lit " (last resort)" }

def ladder : List AutoCandidate :=
  (firstRung fp.dpiClass :: otherRungs fp.dpiClass).map (rung user fp stickyRange)

def buildPlan (memo : Option Recipe) : List AutoCandidate :=
  let withMemory := memo.toList.map (memoRung user fp)
  Distinct.distinctBy AutoCandidate.profile
    (withMemory ++ ladder user fp stickyRange ++ [fallback user fp stickyRange])

end Plan

end SmartAuto

end App
