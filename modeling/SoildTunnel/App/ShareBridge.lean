import SoildTunnel.Lib.Lts

-- The listeners that let other devices, or other apps, use the tunnel as a proxy.
namespace App

-- `127.0.0.1` and `0.0.0.0`.
inductive BindHost
  | loopback
  | allInterfaces
deriving DecidableEq

-- What a `startSync` still has to do while it holds the lock.
inductive Starting
  | bind (localOnly : Bool)
  | announce (localOnly : Bool)
deriving DecidableEq

structure ShareBridge where
  active : Bool := false
  -- The listeners, by the address that they are bound to.
  socksServer : Option BindHost := none
  httpServer : Option BindHost := none
  session : Nat := 0
  bindHost : BindHost := .loopback
  starting : Option Starting := none
  -- The calls of `stop` that have cleared `active`, and the sessions that those past the lock were given.
  stopping : Nat := 0
  stops : List Nat := []
  -- The history: a `startSync` returned true in the last step, with this argument.
  started : Option Bool := none

-- The outcomes of the attempts to bind the two ports are part of a run.
inductive ShareLabel
  | startSync (localOnly : Bool)
  | bind (socks http : List Bool)
  | announce
  | stop
  | stopSession
  | stopClose (k : Nat)

namespace ShareBridge

def BIND_ATTEMPTS : Nat := 10

def closeServers (s : ShareBridge) : ShareBridge :=
  { s with socksServer := none, httpServer := none }

def bindWithRetry (s : ShareBridge) (attempts : List Bool) : Option BindHost :=
  if (attempts.take BIND_ATTEMPTS).any id then some s.bindHost else none

-- A server is forgotten when it is closed, so one that is there is open.
def isUp (s : ShareBridge) : Bool :=
  s.active && (s.socksServer.isSome || s.httpServer.isSome)

def startSync (s : ShareBridge) (localOnly : Bool) : ShareBridge :=
  if s.isUp then { s with started := some localOnly }
  else { s.closeServers with
    session := s.session + 1
    bindHost := if localOnly then .loopback else .allInterfaces
    starting := some (.bind localOnly)
    started := none }

def bind (s : ShareBridge) (localOnly : Bool) (socks http : List Bool) : ShareBridge :=
  let s := { s with
    socksServer := s.bindWithRetry socks
    httpServer := s.bindWithRetry http
    started := none }
  if s.socksServer.isNone || s.httpServer.isNone then
    { s.closeServers with active := false, starting := none }
  else
    { s with starting := some (.announce localOnly) }

-- Everything but the first statement of `stop` waits for the lock.
def step (s : ShareBridge) : ShareLabel → Option ShareBridge
  | .startSync localOnly => if s.starting.isSome then none else some (s.startSync localOnly)
  | .bind socks http =>
    match s.starting with
    | some (.bind localOnly) => some (s.bind localOnly socks http)
    | _ => none
  | .announce =>
    match s.starting with
    | some (.announce localOnly) => some { s with active := true, starting := none, started := some localOnly }
    | _ => none
  | .stop => some { s with active := false, stopping := s.stopping + 1, started := none }
  | .stopSession =>
    if s.starting.isSome ∨ s.stopping = 0 then none
    else some { s with
      session := s.session + 1
      stopping := s.stopping - 1
      stops := s.stops ++ [s.session + 1]
      started := none }
  -- A stop that a newer session has overtaken closes nothing.
  | .stopClose k =>
    if s.starting.isSome then none
    else s.stops[k]?.map fun session =>
      { (if s.session = session then s.closeServers else s) with stops := s.stops.eraseIdx k, started := none }

end ShareBridge

end App
