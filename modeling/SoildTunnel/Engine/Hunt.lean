import SoildTunnel.Engine.Scan

-- The searches of the two scanners, from the candidates to what is returned.
namespace Engine.Scan

open Rust

def Hunt.received {α : Type} (st : Strategy) (h : Hunt α) (r : Round) : Option ProbeResult :=
  if h.effective st ≤ r.now then none
  else
    match r.outcome with
    | .probed i (some rtt) _ => h.pool.running[i]?.map fun addr => ⟨addr.ip, addr.port, rtt⟩
    | _ => none

-- What the searches differ in. Without a route for the addresses that are asked for there are no targets.
structure Hunter (α β : Type) where
  strategy : Strategy
  targets : Option (List SocketAddr)
  initial : α
  consider : α → ProbeResult → Verdict α
  settle : α → Except Error β

inductive Hunting (α β : Type)
  | probing (h : Hunt α) (received : List ProbeResult)
  | returned (result : Except Error β) (received : List ProbeResult)

namespace Hunter

variable {α β : Type} (x : Hunter α β)

def start : Hunting α β :=
  match x.targets with
  | none => .returned (.error .noCleanEndpoint) []
  | some targets => .probing { pool := .start x.strategy.concurrency targets, kept := x.initial } []

def proceed (h : Hunt α) (received : List ProbeResult) : Hunting α β :=
  if h.finished then .returned (x.settle h.kept) received else .probing h received

def step : Hunting α β → Round → Option (Hunting α β)
  | .probing h received, r =>
    (h.step x.strategy x.consider r).map (x.proceed · (received ++ (h.received x.strategy r).toList))
  | .returned .., _ => none

end Hunter

-- How many probes run at a time depends on the device.
def World.capped (w : World) (st : Strategy) : Strategy :=
  { st with concurrency := w.tier.capConcurrency st.concurrency }

structure MasqueProbe where
  ports : List UInt16
  ip : IpScan

def huntBestGateway (w : World) (probe : MasqueProbe) (mode : ScanMode) (excluded : List SocketAddr) :
    Hunter (Option ProbeResult) ProbeResult where
  strategy := w.capped mode.strategy
  targets := (w.effectiveIp probe.ip).map (buildCandidates w (w.capped mode.strategy) probe.ports)
  initial := none
  consider := considerGateway (w.capped mode.strategy) excluded
  settle
    | some pr => .ok pr
    | none => .error .noCleanEndpoint

-- The search for several gateways keeps all of them, and ends as soon as there are enough.
def considerRanked (excluded : List SocketAddr) (want : Nat) (collected : List ProbeResult) (pr : ProbeResult) :
    Verdict (List ProbeResult) :=
  if pr.addr ∈ excluded then .skip
  else if want ≤ (collected ++ [pr]).length then .finish (collected ++ [pr])
  else .keep (collected ++ [pr])

-- It knows neither a target nor a quiet time.
def huntRankedGateways (w : World) (probe : MasqueProbe) (mode : ScanMode) (excluded : List SocketAddr) (want : Nat) :
    Hunter (List ProbeResult) (List ProbeResult) where
  strategy := { w.capped mode.strategy with targetSuccesses := 0 }
  targets := (w.effectiveIp probe.ip).map (buildCandidates w (w.capped mode.strategy) probe.ports)
  initial := []
  consider := considerRanked excluded want
  settle collected := .ok ((collected.mergeSort fun a b => a.rtt ≤ b.rtt).take want)

structure WgProbe where
  ports : List UInt16
  ip : IpScan
  excluded : List SocketAddr

def World.cappedWg (w : World) (st : WgStrategy) : WgStrategy :=
  { st with toStrategy := w.capped st.toStrategy }

def huntWgEndpoints (w : World) (probe : WgProbe) (mode : ScanMode) (want : Nat) :
    Hunter (List ProbeResult) (List ProbeResult) where
  strategy := ((w.cappedWg mode.wgStrategy).wanting (max want 1)).toStrategy
  targets := (w.effectiveIp probe.ip).map
    (buildWgCandidates w (w.cappedWg mode.wgStrategy) probe.ports · probe.excluded)
  initial := []
  consider := considerEndpoint ((w.cappedWg mode.wgStrategy).wanting (max want 1)).toStrategy (max want 1)
  settle verified :=
    if (distinctByIp verified).isEmpty then .error .noCleanEndpoint
    else .ok ((distinctByIp verified).take (max want 1))

end Engine.Scan
