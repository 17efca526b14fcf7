import SoildTunnel.Engine.Addr
import SoildTunnel.Lib.Distinct
import SoildTunnel.Lib.Lts
import SoildTunnel.Lib.Pool

-- The search for an endpoint that answers.
namespace Engine.Scan

open Rust Distinct

inductive IpScan
  | v4
  | v6
  | both
deriving DecidableEq

def IpScan.wantV4 (ip : IpScan) : Bool :=
  ip ≠ .v6

def IpScan.wantV6 (ip : IpScan) : Bool :=
  ip ≠ .v4

def IpScan.parse (cm : CaseMap) (s : Text) : IpScan :=
  let s := cm.toLowercase s.trim
  if s = "6".toList ∨ s = "v6".toList ∨ s = "ipv6".toList then .v6
  else if s = "both".toList ∨ s = "all".toList ∨ s = "dual".toList then .both
  else .v4

inductive ScanMode
  | turbo
  | balanced
  | thorough
  | stealth
  | ironclad
deriving DecidableEq

def ScanMode.parse (cm : CaseMap) (s : Text) : ScanMode :=
  let s := cm.toLowercase s.trim
  if s = "turbo".toList ∨ s = "fast".toList then .turbo
  else if s = "thorough".toList ∨ s = "deep".toList ∨ s = "pro".toList then .thorough
  else if s = "stealth".toList ∨ s = "quiet".toList then .stealth
  else if s = "ironclad".toList ∨ s = "real".toList ∨ s = "verify".toList ∨ s = "guaranteed".toList then .ironclad
  else .balanced

-- Times are in milliseconds.
structure Strategy where
  concurrency : Nat
  overallDeadline : Nat
  quietAfterFirst : Nat
  targetSuccesses : Nat
  earlyExitFirst : Bool
  fullSubnet : Bool
  samplePerCidr : Nat

structure WgStrategy extends Strategy where
  poolPortWaves : Nat

-- A search for several endpoints does not end at the first one.
def WgStrategy.wanting (st : WgStrategy) (want : Nat) : WgStrategy :=
  if 1 < want then { st with earlyExitFirst := false, targetSuccesses := max st.targetSuccesses (want * 3) }
  else st

def ScanMode.strategy : ScanMode → Strategy
  | .turbo => ⟨20, 45000, 0, 1, true, false, 64⟩
  | .balanced => ⟨16, 120000, 20000, 6, false, false, 140⟩
  | .thorough => ⟨20, 300000, 30000, 0, false, true, 0⟩
  | .stealth => ⟨3, 180000, 25000, 4, false, false, 64⟩
  | .ironclad => ⟨4, 180000, 15000, 3, false, false, 140⟩

def ScanMode.wgStrategy : ScanMode → WgStrategy
  | .turbo => ⟨⟨12, 30000, 0, 1, true, false, 40⟩, 1⟩
  | .balanced => ⟨⟨8, 80000, 12000, 5, false, false, 120⟩, 3⟩
  | .thorough => ⟨⟨10, 250000, 25000, 0, false, true, 0⟩, 4⟩
  | .stealth => ⟨⟨3, 150000, 20000, 3, false, false, 50⟩, 2⟩
  | .ironclad => ⟨⟨4, 180000, 15000, 3, false, false, 120⟩, 3⟩

structure Cidr (α : Type) where
  base : α
  bits : Nat
deriving DecidableEq

inductive Tier
  | low
  | medium
  | high

def Tier.capConcurrency (requested : Nat) : Tier → Nat
  | .low => min requested 4
  | .medium => min requested 10
  | .high => requested

-- What the process finds around it: its environment variables, whether the host has a route for
-- IPv6, how powerful the device is, and the addresses that the random generator picks from a range.
-- They are picked anew for each range of a list, also for one that stands in it twice.
structure World where
  env : String → Option Text
  hostHasIpv6 : Bool
  tier : Tier
  sampleCidrV4 : (index : Nat) → Cidr Ipv4Addr → Nat → List Ipv4Addr
  sampleCidrV6 : (index : Nat) → Cidr Ipv6Addr → Nat → List Ipv6Addr

def World.nonBlank (w : World) (name : String) : Option Text :=
  (w.env name).filter fun value => value.trim ≠ []

-- In a team the ranges of teams come first.
def World.prioritize {α : Type} [DecidableEq α] (w : World) (all first : List α) : List α :=
  if (w.nonBlank "SOILDTUNNEL_TEAM").isSome then
    all.foldl (fun out a => if a ∈ out then out else out ++ [a]) (first.filter (· ∈ all))
  else
    all

def ipv4OfNat (n : Nat) : Ipv4Addr :=
  .new (.ofNat (n / 2 ^ 24)) (.ofNat (n / 2 ^ 16)) (.ofNat (n / 2 ^ 8)) (.ofNat n)

-- All hosts of a range that is not too large, without the first and the last of its addresses.
def enumerateCidrV4 (c : Cidr Ipv4Addr) : List Ipv4Addr :=
  let hostBits := 32 - c.bits
  if hostBits = 0 then [c.base]
  else if 12 < hostBits then []
  else (List.range' 1 (2 ^ hostBits - 2)).map fun off => ipv4OfNat (Octets.bigEndian c.base.toList + off)

def World.hostsV4 (w : World) (st : Strategy) (index : Nat) (c : Cidr Ipv4Addr) : List Ipv4Addr :=
  if st.fullSubnet then enumerateCidrV4 c else w.sampleCidrV4 index c st.samplePerCidr

-- The ranges take turns.
def interleave {α : Type} (hosts : List (List α)) : List α :=
  (List.range ((hosts.map List.length).foldl max 0)).flatMap fun i => hosts.filterMap (·[i]?)

def parseIpv4 (t : Text) : Option Ipv4Addr :=
  match Reader.ipv4Addr t with
  | some (ip, []) => some ip
  | _ => none

def appNormalizeCidrV4 (raw : Text) : Option (Cidr Ipv4Addr) :=
  let v := raw.trim
  if v = [] then none
  else
    match Text.splitOnce ['/'] v with
    | some (ip, bits) => do
      let base ← parseIpv4 ip.trim
      let bits ← Text.parseU16 bits.trim
      if bits.toNat ≤ 32 then some ⟨base, bits.toNat⟩ else none
    | none =>
      if Text.endsWith ".x".toList v ∨ Text.endsWith ".X".toList v ∨ Text.endsWith ".*".toList v then
        (parseIpv4 (v.dropLast ++ ['0'])).map (⟨·, 24⟩)
      else
        (parseIpv4 v).map (⟨·, 32⟩)

def manualRanges (raw : Text) : List (Cidr Ipv4Addr) :=
  (raw.splitOnP fun c => c = ',' || c = ';' || c = ' ' || c = '\n').filterMap appNormalizeCidrV4

def World.customCidrsV4 (w : World) (name : String) : Option (List (Cidr Ipv4Addr)) := do
  let raw ← (w.nonBlank name).or (w.nonBlank "SOILDTUNNEL_SCAN_CIDRS")
  if manualRanges raw = [] then none else some (manualRanges raw)

section Masque

def MASQUE_SEEDS : List Ipv4Addr :=
  [.new 162 159 196 1, .new 162 159 195 1, .new 162 159 192 1, .new 162 159 197 3, .new 162 159 197 1,
    .new 162 159 198 2, .new 162 159 198 1, .new 162 159 193 1]

def MASQUE_CIDRS_V4 : List (Cidr Ipv4Addr) :=
  [⟨.new 162 159 196 0, 24⟩, ⟨.new 162 159 195 0, 24⟩, ⟨.new 162 159 192 0, 24⟩, ⟨.new 162 159 193 0, 24⟩,
    ⟨.new 162 159 204 0, 24⟩, ⟨.new 162 159 197 0, 24⟩, ⟨.new 162 159 198 0, 24⟩, ⟨.new 172 65 251 0, 24⟩,
    ⟨.new 188 114 96 0, 24⟩, ⟨.new 188 114 97 0, 24⟩, ⟨.new 188 114 98 0, 24⟩, ⟨.new 188 114 99 0, 24⟩,
    ⟨.new 162 159 36 0, 24⟩, ⟨.new 162 159 46 0, 24⟩]

def MASQUE_ZT_CIDRS_V4 : List (Cidr Ipv4Addr) :=
  [⟨.new 162 159 197 0, 24⟩]

def MASQUE_SEEDS_V6 : List Ipv6Addr :=
  [.ofSegments [0x2606, 0x4700, 0xd0, 0, 0, 0, 0xa29f, 0xc602],
    .ofSegments [0x2606, 0x4700, 0xd1, 0, 0, 0, 0xa29f, 0xc602],
    .ofSegments [0x2606, 0x4700, 0xd0, 0, 0, 0, 0xa29f, 0xc601],
    .ofSegments [0x2606, 0x4700, 0xd0, 0, 0, 0, 0xa29f, 0xc001]]

def MASQUE_CIDRS_V6 : List (Cidr Ipv6Addr) :=
  [⟨.ofSegments [0x2606, 0x4700, 0xd0], 48⟩, ⟨.ofSegments [0x2606, 0x4700, 0x102], 48⟩,
    ⟨.ofSegments [0x2606, 0x4700, 0xd1], 48⟩]

def MASQUE_ZT_CIDRS_V6 : List (Cidr Ipv6Addr) :=
  [⟨.ofSegments [0x2606, 0x4700, 0x102], 48⟩]

def atPort (port : UInt16) (ip : IpAddr) : SocketAddr :=
  ⟨ip, port⟩

def atOtherPorts (primary : UInt16) (ports : List UInt16) (ips : List IpAddr) : List SocketAddr :=
  ips.flatMap fun ip => (ports.filter (· ≠ primary)).map (atPort · ip)

def manualMasqueCandidates (w : World) (st : Strategy) (ports : List UInt16) (cidrs : List (Cidr Ipv4Addr)) :
    List SocketAddr :=
  let primary := ports.headD 443
  let hosts := (interleave (cidrs.mapIdx (w.hostsV4 st))).map IpAddr.v4
  distinct (hosts.map (atPort primary) ++ atOtherPorts primary ports hosts)

def buildCandidates (w : World) (st : Strategy) (ports : List UInt16) (ip : IpScan) : List SocketAddr :=
  match if ip.wantV4 then w.customCidrsV4 "SOILDTUNNEL_MASQUE_CIDRS" else none with
  | some cidrs => manualMasqueCandidates w st ports cidrs
  | none =>
    let primary := ports.headD 443
    let seeds := if ip.wantV4 then MASQUE_SEEDS.map IpAddr.v4 else []
    let seeds6 := if ip.wantV6 then MASQUE_SEEDS_V6.map IpAddr.v6 else []
    let cidrs := if ip.wantV4 then w.prioritize MASQUE_CIDRS_V4 MASQUE_ZT_CIDRS_V4 else []
    let cidrs6 := if ip.wantV6 then w.prioritize MASQUE_CIDRS_V6 MASQUE_ZT_CIDRS_V6 else []
    let per := if st.samplePerCidr = 0 then 96 else st.samplePerCidr
    let hosts := (interleave (cidrs.mapIdx (w.hostsV4 st))).map IpAddr.v4
    let hosts6 := (interleave (cidrs6.mapIdx fun i c => w.sampleCidrV6 i c per)).map IpAddr.v6
    distinct ((seeds ++ hosts ++ seeds6 ++ hosts6).map (atPort primary) ++
      atOtherPorts primary ports seeds ++ atOtherPorts primary ports seeds6)

end Masque

section WireGuard

def WG_SEEDS_V4 : List Ipv4Addr :=
  [.new 162 159 192 1, .new 162 159 195 1, .new 188 114 96 1, .new 188 114 97 1, .new 162 159 193 1]

def WG_PREFIXES_V4 : List (Cidr Ipv4Addr) :=
  [⟨.new 162 159 192 0, 24⟩, ⟨.new 162 159 195 0, 24⟩, ⟨.new 188 114 96 0, 24⟩, ⟨.new 188 114 97 0, 24⟩,
    ⟨.new 188 114 98 0, 24⟩, ⟨.new 188 114 99 0, 24⟩, ⟨.new 162 159 193 0, 24⟩]

def WG_ZT_PREFIXES_V4 : List (Cidr Ipv4Addr) :=
  [⟨.new 162 159 193 0, 24⟩]

def WG_SEEDS_V6 : List Ipv6Addr :=
  [.ofSegments [0x2606, 0x4700, 0xd0, 0, 0, 0, 0xa29f, 0xc001],
    .ofSegments [0x2606, 0x4700, 0xd1, 0, 0, 0, 0xa29f, 0xc001],
    .ofSegments [0x2606, 0x4700, 0xd0, 0, 0, 0, 0xa29f, 0xc301],
    .ofSegments [0x2606, 0x4700, 0xd0, 0, 0, 0, 0xbc72, 0x6001]]

def WG_PREFIXES_V6 : List (Cidr Ipv6Addr) :=
  [⟨.ofSegments [0x2606, 0x4700, 0xd0], 64⟩, ⟨.ofSegments [0x2606, 0x4700, 0xd1], 64⟩,
    ⟨.ofSegments [0x2606, 0x4700, 0x100], 48⟩]

def WG_ZT_PREFIXES_V6 : List (Cidr Ipv6Addr) :=
  [⟨.ofSegments [0x2606, 0x4700, 0x100], 48⟩]

-- In each wave every address has a port, and from wave to wave the ports move on by one.
def rotatePorts (waves : Nat) (ports : List UInt16) (ips : List IpAddr) : List SocketAddr :=
  (List.range (max waves 1)).flatMap fun wave =>
    ips.zipIdx.map fun (ip, i) => ⟨ip, ports.getD ((i + wave) % ports.length) 0⟩

def pushCandidates (st : WgStrategy) (ports : List UInt16) (ips : List IpAddr) (excluded : List SocketAddr) :
    List SocketAddr :=
  distinct ((rotatePorts st.poolPortWaves ports ips).filter (· ∉ excluded))

def manualWgCandidates (w : World) (st : WgStrategy) (ports : List UInt16) (cidrs : List (Cidr Ipv4Addr))
    (excluded : List SocketAddr) : List SocketAddr :=
  let ips := (interleave (cidrs.mapIdx (w.hostsV4 st.toStrategy))).map IpAddr.v4
  pushCandidates st (if ports = [] then [2408] else ports) ips excluded

def buildWgCandidates (w : World) (st : WgStrategy) (ports : List UInt16) (ip : IpScan)
    (excluded : List SocketAddr) : List SocketAddr :=
  let ports := if ports = [] then [2408] else distinct ports
  match if ip.wantV4 then w.customCidrsV4 "SOILDTUNNEL_WG_CIDRS" else none with
  | some cidrs => manualWgCandidates w st ports cidrs excluded
  | none =>
    let anchors := if ip.wantV4 then (w.prioritize WG_SEEDS_V4 [.new 162 159 193 1]).map IpAddr.v4 else []
    let anchors6 := if ip.wantV6 then WG_SEEDS_V6.map IpAddr.v6 else []
    let cidrs := if ip.wantV4 then w.prioritize WG_PREFIXES_V4 WG_ZT_PREFIXES_V4 else []
    let cidrs6 := if ip.wantV6 then w.prioritize WG_PREFIXES_V6 WG_ZT_PREFIXES_V6 else []
    let per := if st.samplePerCidr = 0 then 80 else st.samplePerCidr
    let hosts := (interleave (cidrs.mapIdx (w.hostsV4 st.toStrategy))).map IpAddr.v4
    let hosts6 := (interleave (cidrs6.mapIdx fun i c => w.sampleCidrV6 i c per)).map IpAddr.v6
    pushCandidates st ports (anchors ++ anchors6 ++ hosts ++ hosts6) excluded

end WireGuard

-- The round trip time is in nanoseconds.
structure ProbeResult where
  ip : IpAddr
  port : UInt16
  rtt : Nat

def ProbeResult.addr (pr : ProbeResult) : SocketAddr :=
  ⟨pr.ip, pr.port⟩

inductive Verdict (α : Type)
  | skip
  | keep (kept : α)
  | finish (kept : α)

structure Hunt (α : Type) where
  pool : Pool SocketAddr
  kept : α
  found : Nat := 0
  quietUntil : Option Nat := none
  finished : Bool := false

-- What `select!` gives in a round. A probe comes with the round trip time that it measured, if it
-- succeeded, and with the time at which it is dealt with.
inductive Outcome
  | elapsed
  | ended
  | probed (index : Nat) (rtt : Option Nat) (now : Nat)

-- A round begins with a look at the clock.
structure Round where
  now : Nat
  outcome : Outcome

namespace Hunt

variable {α : Type} (st : Strategy) (consider : α → ProbeResult → Verdict α)

def effective (h : Hunt α) : Nat :=
  h.quietUntil.elim st.overallDeadline (min · st.overallDeadline)

-- The search goes on for a while after it has found enough.
def count (h : Hunt α) (kept : α) (now : Nat) : Hunt α :=
  let h := { h with kept, found := h.found + 1 }
  if 0 < st.targetSuccesses ∧ st.targetSuccesses ≤ h.found ∧ h.quietUntil = none then
    if st.quietAfterFirst ≠ 0 then { h with quietUntil := some (now + st.quietAfterFirst) }
    else { h with finished := true }
  else h

def probed (h : Hunt α) (pr : ProbeResult) (now : Nat) : Hunt α :=
  match consider h.kept pr with
  | .skip => h
  | .keep kept => h.count st kept now
  | .finish kept => { h with kept, finished := true }

def step (h : Hunt α) (r : Round) : Option (Hunt α) :=
  if h.finished then none
  else if h.effective st ≤ r.now then some { h with finished := true }
  else
    match r.outcome with
    | .elapsed => some { h with finished := true }
    | .ended => if h.pool.running = [] ∧ h.pool.waiting = [] then some { h with finished := true } else none
    | .probed i rtt now => do
      let (addr, pool) ← h.pool.complete i
      match rtt with
      | none => some { h with pool }
      | some rtt => some ({ h with pool }.probed st consider ⟨addr.ip, addr.port, rtt⟩ now)

end Hunt

-- The search for a MASQUE gateway keeps the best one. When it may end at the first, it returns it.
def considerGateway (st : Strategy) (excluded : List SocketAddr) (best : Option ProbeResult) (pr : ProbeResult) :
    Verdict (Option ProbeResult) :=
  if pr.addr ∈ excluded then .skip
  else if st.earlyExitFirst then .finish (some pr)
  else
    match best with
    | some cur => if cur.rtt ≤ pr.rtt then .keep (some cur) else .keep (some pr)
    | none => .keep (some pr)

def distinctByIp (found : List ProbeResult) : List ProbeResult :=
  distinctBy ProbeResult.ip (found.mergeSort fun a b => a.rtt ≤ b.rtt)

-- The search for WireGuard endpoints keeps all of them.
def considerEndpoint (st : Strategy) (want : Nat) (verified : List ProbeResult) (pr : ProbeResult) :
    Verdict (List ProbeResult) :=
  if st.earlyExitFirst then .finish [pr]
  else if want ≤ (distinctByIp (verified ++ [pr])).length ∧ 1 < want then .finish (verified ++ [pr])
  else .keep (verified ++ [pr])

structure ScanRequest where
  transport : Transport
  mode : Text
  ip : IpScan
  ports : List UInt16
  excluded : List SocketAddr

structure Endpoint where
  ip : IpAddr
  port : UInt16
  rttMs : Nat

def Endpoint.socket (e : Endpoint) : SocketAddr :=
  ⟨e.ip, e.port⟩

def ProbeResult.endpoint (pr : ProbeResult) : Endpoint :=
  ⟨pr.ip, pr.port, pr.rtt / 10 ^ 6⟩

inductive Error
  | noCleanEndpoint
  | cancelled

inductive Search
  | masque (h : Hunt (Option ProbeResult))
  | wireGuard (h : Hunt (List ProbeResult))
  | returned (result : Except Error Endpoint)

inductive Event
  | round (r : Round)
  | cancel

-- Without a route for IPv6 only IPv4 is scanned, if it was asked for at all.
def World.effectiveIp (w : World) (ip : IpScan) : Option IpScan :=
  if ip.wantV6 ∧ !w.hostHasIpv6 then
    if ip.wantV4 then some .v4 else none
  else
    some ip

def ProbeResult.outcome : Option ProbeResult → Except Error Endpoint
  | some pr => .ok pr.endpoint
  | none => .error .noCleanEndpoint

namespace Search

variable (cm : CaseMap) (w : World) (request : ScanRequest)

def masqueStrategy : Strategy :=
  let st := (ScanMode.parse cm request.mode).strategy
  { st with concurrency := w.tier.capConcurrency st.concurrency }

-- `hunt_best_wg_endpoint` wants one endpoint.
def WANT : Nat := 1

def wgStrategy : WgStrategy :=
  let st := (ScanMode.parse cm request.mode).wgStrategy
  { st with concurrency := w.tier.capConcurrency st.concurrency }.wanting WANT

def candidates : List SocketAddr :=
  match w.effectiveIp request.ip, request.transport with
  | none, _ => []
  | some ip, .masque => buildCandidates w (masqueStrategy cm w request) request.ports ip
  | some ip, .wireGuard => buildWgCandidates w (wgStrategy cm w request) request.ports ip request.excluded

def start : Search :=
  match w.effectiveIp request.ip, request.transport with
  | none, _ => .returned (.error .noCleanEndpoint)
  | some _, .masque =>
    .masque { pool := .start (masqueStrategy cm w request).concurrency (candidates cm w request), kept := none }
  | some _, .wireGuard =>
    .wireGuard { pool := .start (wgStrategy cm w request).concurrency (candidates cm w request), kept := [] }

def settleMasque (h : Hunt (Option ProbeResult)) : Search :=
  if h.finished then .returned (ProbeResult.outcome h.kept) else .masque h

def settleWireGuard (h : Hunt (List ProbeResult)) : Search :=
  if h.finished then .returned (ProbeResult.outcome ((distinctByIp h.kept).take WANT).head?) else .wireGuard h

-- `scan` gives the MASQUE search an empty set in place of the one in the request.
def step : Search → Event → Option Search
  | .masque h, .round r =>
    let st := masqueStrategy cm w request
    (h.step st (considerGateway st []) r).map settleMasque
  | .wireGuard h, .round r =>
    let st := (wgStrategy cm w request).toStrategy
    (h.step st (considerEndpoint st WANT) r).map settleWireGuard
  | .returned _, _ => none
  | _, .cancel => some (.returned (.error .cancelled))

end Search

end Engine.Scan
