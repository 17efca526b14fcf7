import SoildTunnel.Engine.Scan

-- The loops that keep a tunnel up: which endpoint is next, and what is remembered of those before.
namespace Engine.Reconnect

open Rust Scan

structure ScanWith where
  mode : Text
  ip : IpScan
deriving DecidableEq

def selectScanModeStr (var answer : Option Text) : Text :=
  match var with
  | some v => v
  | none =>
    if answer = some "1".toList then "turbo".toList
    else if answer = some "3".toList then "thorough".toList
    else if answer = some "4".toList then "stealth".toList
    else if answer = some "5".toList then "ironclad".toList
    else "balanced".toList

def selectIpVersion (cm : CaseMap) (var answer : Option Text) : IpScan :=
  match var with
  | some v => IpScan.parse cm v
  | none =>
    if answer = some "2".toList then .v6
    else if answer = some "3".toList then .both
    else .v4

def wantQuickReconnect (var answer : Option Text) : Bool :=
  if var ∈ ["1", "true", "yes", "on"].map fun v => some v.toList then true
  else if var ∈ ["0", "false", "no", "off"].map fun v => some v.toList then false
  else !answer.any fun a => Text.eqIgnoreAsciiCase a "n".toList || Text.eqIgnoreAsciiCase a "no".toList

-- The profiles that are tried one after the other. The second argument says whether there are others
-- than the first one.
def wgProfileCandidates (noize : Option Text) (retry : Bool) : List Text :=
  let primary := noize.getD "balanced".toList
  if retry then
    ["balanced", "aggressive", "light", "off"].foldl (fun names fallback =>
      if names.any (Text.eqIgnoreAsciiCase · fallback.toList) then names else names ++ [fallback.toList]) [primary]
  else [primary]

-- What a run is started with: the variables, the answers of the user where they are not set, the
-- endpoint that the organisation has assigned and the one of the last connection with its profile.
structure Setup where
  scanVar : Option Text
  scanAnswer : Option Text
  ipVar : Option Text
  ipAnswer : Option Text
  reconnectVar : Option Text
  reconnectAnswer : Option Text
  noizeVar : Option Text
  profileRetry : Bool
  assigned : Option SocketAddr
  cached : Option (SocketAddr × Text)

namespace Setup

def wantsCached (su : Setup) : Bool :=
  wantQuickReconnect su.reconnectVar su.reconnectAnswer

def configured (cm : CaseMap) (su : Setup) : ScanWith where
  mode := selectScanModeStr su.scanVar su.scanAnswer
  ip := selectIpVersion cm su.ipVar su.ipAnswer

-- Nobody is asked when the first endpoint is known.
def scanWith (cm : CaseMap) (su : Setup) (known : Bool) : ScanWith :=
  if known then ⟨[], .v4⟩ else su.configured cm

end Setup

-- A peer that the user insists on. Its text need not be an address.
abbrev Forced := Option (Option SocketAddr)

inductive Ended
  | closed
  | migrate
  | iranianEgress
  | failed
deriving DecidableEq

namespace WireGuard

structure Candidate where
  peer : SocketAddr
  profile : Text
deriving DecidableEq

inductive Phase
  | top
  | retrying (c : Candidate)
  | forcing (peer : SocketAddr)
  | scanning
  | tunnel (c : Candidate)
  | returned
deriving DecidableEq

inductive Entry
  | parked (peer : SocketAddr) (expiry : Nat)
  | ended (peer : SocketAddr) (result : Ended)
deriving DecidableEq

structure State where
  forced : Forced
  scan : ScanWith
  cooldown : Nat
  quick : Option Candidate
  lastGood : Option Candidate := none
  fails : Nat := 0
  cooldowns : List (SocketAddr × Nat) := []
  phase : Phase := .top
  clock : Nat := 0
  -- The latest entry comes first.
  log : List Entry := []
deriving DecidableEq

-- What the loop waits for: its next round, the answer of the endpoint that was good before, the profile
-- with which a forced peer answers, the result of a scan, and the end of a tunnel.
inductive Event
  | next
  | verified (ok : Bool)
  | tested (profile : Option Text)
  | scanned (result : Option Candidate)
  | ended (result : Ended)

def MAX_CONSECUTIVE_FAILS : Nat := 2

-- The endpoint with which a run begins. The assigned one comes before the one of the last connection.
def quickCandidate (su : Setup) (forced : Forced) (verifies : SocketAddr → Text → Bool) : Option Candidate :=
  if forced.isSome then none
  else
    let assigned := su.assigned.bind fun peer =>
      ((wgProfileCandidates su.noizeVar su.profileRetry).find? (verifies peer)).map (⟨peer, ·⟩)
    let cached := su.cached.bind fun (peer, profile) =>
      if su.wantsCached ∧ verifies peer profile then some ⟨peer, profile⟩ else none
    assigned.or cached

namespace State

def start (cm : CaseMap) (su : Setup) (forced : Forced) (verifies : SocketAddr → Text → Bool) (cooldown : Nat) : State where
  forced
  scan := su.scanWith cm (forced.isSome || (quickCandidate su forced verifies).isSome)
  cooldown
  quick := quickCandidate su forced verifies

def park (s : State) (peer : SocketAddr) : State :=
  { s with
    cooldowns := (peer, s.clock + s.cooldown) :: s.cooldowns.filter (·.1 ≠ peer)
    log := .parked peer (s.clock + s.cooldown) :: s.log }

-- The head of the loop looks at the clock.
def tidy (s : State) : State :=
  let s := { s with cooldowns := s.cooldowns.filter (s.clock < ·.2) }
  if MAX_CONSECUTIVE_FAILS ≤ s.fails then
    match s.lastGood with
    | some c => { s.park c.peer with lastGood := none, fails := 0 }
    | none => { s with fails := 0 }
  else s

def use (s : State) (c : Candidate) : State :=
  { s with
    fails := if s.lastGood.map (·.peer) = some c.peer then s.fails else 0
    lastGood := some c
    phase := .tunnel c }

-- There is no endpoint to try again.
def search (s : State) : State :=
  match s.forced with
  | some (some peer) => { s with phase := .forcing peer }
  | some none => { s with phase := .returned }
  | none => { s with phase := .scanning }

def next (s : State) : State :=
  match s.quick with
  | some c => { s with quick := none }.use c
  | none =>
    match s.lastGood with
    | some c => { s with phase := .retrying c }
    | none => s.search

def ended (s : State) (c : Candidate) (result : Ended) : State :=
  let s := { s with log := .ended c.peer result :: s.log, phase := .top }
  if result = .migrate then { s.park c.peer with lastGood := none, fails := 0 }
  else { s with fails := s.fails + 1 }

-- A scan does not find what it is told to leave out.
def act (s : State) (e : Event) : Option State :=
  match s.phase, e with
  | .top, .next => some s.tidy.next
  | .retrying c, .verified ok => some (if ok then s.use c else s.search)
  | .forcing peer, .tested (some profile) => some (s.use ⟨peer, profile⟩)
  | .forcing _, .tested none => some { s with phase := .returned }
  | .scanning, .scanned (some c) => if c.peer ∈ s.cooldowns.map Prod.fst then none else some (s.use c)
  | .scanning, .scanned none => some { s with phase := .top }
  | .tunnel c, .ended result => some (s.ended c result)
  | _, _ => none

-- The clock does not go back.
def step (s : State) : Nat × Event → Option State
  | (now, e) => if s.clock ≤ now then { s with clock := now }.act e else none

end State

end WireGuard

namespace Masque

inductive Phase
  | top
  | retrying (peer : SocketAddr)
  | scanning
  | tunnel (peer : SocketAddr)
  | returned
deriving DecidableEq

structure State where
  forced : Forced
  -- Whether another tunnel runs inside of this one.
  inner : Bool
  scan : ScanWith
  quick : Option SocketAddr
  avoid : List SocketAddr
  lastGood : Option SocketAddr := none
  ranked : List SocketAddr := []
  phase : Phase := .top
  -- History: the gateway of the last tunnel, if it ended with `Migrate`.
  abandoned : Option SocketAddr := none
deriving DecidableEq

-- A scan finds the best gateway or, for an inner tunnel, several ones in their order.
inductive Event
  | next
  | verified (ok : Bool)
  | found (result : Option SocketAddr)
  | ranked (result : Option (List SocketAddr))
  | ended (result : Ended)

def quickPeer (su : Setup) (forced : Forced) (verifies : SocketAddr → Bool) : Option SocketAddr :=
  if forced.isSome then none
  else
    let cached := su.cached.bind fun (peer, _) => if su.wantsCached ∧ verifies peer then some peer else none
    (su.assigned.filter verifies).or cached

namespace State

def start (cm : CaseMap) (su : Setup) (forced : Forced) (verifies : SocketAddr → Bool) (inner : Bool)
    (avoid : List SocketAddr) : State where
  forced
  inner
  scan := su.scanWith cm (forced.isSome || (quickPeer su forced verifies).isSome)
  quick := quickPeer su forced verifies
  avoid

-- A gateway that is to be avoided is not used, unless the user insists on it.
def use (s : State) (peer : SocketAddr) : State :=
  if s.forced = none ∧ peer ∈ s.avoid then { s with lastGood := none, phase := .top }
  else { s with lastGood := some peer, phase := .tunnel peer }

-- The first one of the list, which is not empty.
def walk (s : State) : State :=
  match s.ranked with
  | [] => { s with phase := .top }
  | peer :: rest => { s with ranked := rest }.use peer

def search (s : State) : State :=
  match s.forced with
  | some (some peer) => s.use peer
  | some none => { s with phase := .returned }
  | none => if s.inner ∧ s.ranked ≠ [] then s.walk else { s with phase := .scanning }

def next (s : State) : State :=
  match s.quick with
  | some peer => { s with quick := none }.use peer
  | none =>
    match s.lastGood with
    | some peer => { s with phase := .retrying peer }
    | none => s.search

def ended (s : State) (peer : SocketAddr) (result : Ended) : State :=
  let s := { s with phase := .top, abandoned := if result = Ended.migrate then some peer else none }
  match result with
  | .closed => { s with ranked := [] }
  | .migrate => { s with lastGood := none }
  | .iranianEgress =>
    { s with
      avoid := if peer ∈ s.avoid then s.avoid else peer :: s.avoid
      lastGood := none
      phase := if s.forced.isSome then .returned else .top }
  | .failed => if s.inner then { s with lastGood := none } else s

-- `huntRankedGateways` ranks no gateway twice, so that a scan gives different ones.
def step (s : State) (e : Event) : Option State :=
  match s.phase, e with
  | .top, .next => some s.next
  | .retrying peer, .verified ok => some (if ok then s.use peer else s.search)
  | .scanning, .found none => if s.inner then none else some { s with phase := .top }
  | .scanning, .found (some peer) => if s.inner then none else some (s.use peer)
  | .scanning, .ranked none => if s.inner then some { s with phase := .top } else none
  | .scanning, .ranked (some peers) =>
    if s.inner ∧ peers.Nodup then some { s with ranked := peers.filter (· ∉ s.avoid) }.walk else none
  | .tunnel peer, .ended result => some (s.ended peer result)
  | _, _ => none

end State

end Masque

end Engine.Reconnect
