import SoildTunnel.Engine.Net
import SoildTunnel.Lib.Lts

-- The gateways that are avoided because their traffic leaves in the wrong country. They are kept in a
-- file, so that a later run knows them too.
namespace Engine.LastConn

-- `since` is the time of the entry in seconds.
structure AvoidEntry where
  peer : SocketAddr
  since : Nat
deriving DecidableEq

def AVOID_TTL_SECS : Nat := 12 * 3600

def AvoidEntry.isFresh (now : Nat) (e : AvoidEntry) : Bool :=
  now - e.since < AVOID_TTL_SECS

def loadAvoided (entries : List AvoidEntry) (now : Nat) : List SocketAddr :=
  (entries.filter (·.isFresh now)).map (·.peer)

def addAvoided (now : Nat) (entries : List AvoidEntry) (peer : SocketAddr) : List AvoidEntry :=
  if entries.any (·.peer = peer) then entries else entries ++ [⟨peer, now⟩]

-- The set is visited in the order of the list.
def saveAvoided (entries : List AvoidEntry) (peers : List SocketAddr) (now : Nat) : List AvoidEntry :=
  peers.foldl (addAvoided now) (entries.filter (·.isFresh now))

-- A run of `run_masque`: the gateway that the user insists on, and those that the run avoids.
structure Run where
  forced : Option SocketAddr
  avoid : List SocketAddr

-- A gateway that is not forced is only used if it is not avoided.
def Run.uses (r : Run) (peer : SocketAddr) : Bool :=
  match r.forced with
  | some forced => peer = forced
  | none => peer ∉ r.avoid

structure State where
  entries : List AvoidEntry := []
  run : Option Run := none
  clock : Nat := 0
  -- History: when a gateway was last reported.
  lastReport : SocketAddr → Option Nat := fun _ => none

-- A run starts, in place of the one before, or a tunnel through a gateway ends with `IranianEgress`.
inductive Event
  | start (forced : Option SocketAddr)
  | iranianEgress (peer : SocketAddr)

namespace State

def start (s : State) (forced : Option SocketAddr) (now : Nat) : State :=
  { s with run := some ⟨forced, loadAvoided s.entries now⟩, clock := now }

-- With a forced gateway the run is over.
def report (s : State) (r : Run) (peer : SocketAddr) (now : Nat) : State :=
  let avoid := if peer ∈ r.avoid then r.avoid else peer :: r.avoid
  { entries := saveAvoided s.entries avoid now
    run := if r.forced.isSome then none else some { r with avoid }
    clock := now
    lastReport := Function.update s.lastReport peer (some now) }

-- The clock does not go back.
def step (s : State) : Nat × Event → Option State
  | (now, .start forced) => if s.clock ≤ now then some (s.start forced now) else none
  | (now, .iranianEgress peer) =>
    s.run.bind fun r => if s.clock ≤ now ∧ r.uses peer then some (s.report r peer now) else none

end State

end Engine.LastConn
