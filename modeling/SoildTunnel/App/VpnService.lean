import SoildTunnel.App.Profile
import SoildTunnel.Lib.Lts

-- The VPN service: requests arrive on the main thread, and coroutines run beside it that connect,
-- supervise, tear down and lock down.
namespace App.VpnService

-- The interface that the service holds. A blackhole routes everything and reads nothing.
inductive Tun
  | vpn
  | blackhole
deriving DecidableEq

inductive ConnectionState
  | idle
  | launching
  | connecting
  | verifying
  | connected
  | reconnecting (attempt maxAttempts : Nat)
  | disconnecting
  | error
deriving DecidableEq

-- The variables of the supervisor's loop. `recovering` says that a deadline is set.
structure Watch where
  attempt : Nat := 0
  socksOpened : Bool := false
  recovering : Bool := false
  migrateStreak : Nat := 0
  healthyChecks : Nat := 0
deriving DecidableEq

-- Where a coroutine is. `rest` holds the rungs of the ladder that are left; tor has no ladder.
inductive Pc
  -- `startTunnel`
  | begin (previousRun previousStop : Option Nat)
  | joinRun (previousRun : Nat) (previousStop : Option Nat)
  | joinStop (previousStop : Option Nat)
  | flow
  | threw
  -- `runLadder`, `connectAttempt` and `connectTor`
  | ladder (rungs : List ConnectionProfile)
  | attempt (c : ConnectionProfile) (rest : Option (List ConnectionProfile))
  | spawn (c : ConnectionProfile) (rest : Option (List ConnectionProfile))
  | awaitOpen (c : ConnectionProfile) (rest : Option (List ConnectionProfile))
  | proxy (c : ConnectionProfile) (rest : Option (List ConnectionProfile))
  | establish (c : ConnectionProfile) (rest : Option (List ConnectionProfile))
  | forward (c : ConnectionProfile) (rest : Option (List ConnectionProfile))
  | verify (c : ConnectionProfile) (rest : Option (List ConnectionProfile))
  | rungFailed (rest : List ConnectionProfile)
  | won (c : ConnectionProfile)
  -- `superviseEngine` and `superviseTor`
  | supervise (c : ConnectionProfile) (w : Watch)
  | watching (c : ConnectionProfile) (w : Watch)
  | respawn (c : ConnectionProfile) (w : Watch)
  | repoint (c : ConnectionProfile) (w : Watch)
  | reopen (c : ConnectionProfile) (w : Watch)
  | reverify (c : ConnectionProfile) (w : Watch)
  -- `stopEverything`
  | teardown (job : Option Nat)
  | idle (job : Option Nat)
  -- `enterLockdown`
  | lockdown (c : ConnectionProfile) (job : Option Nat)
  | lockdownClose (c : ConnectionProfile) (job : Option Nat)
  | lockdownBuild (c : ConnectionProfile) (job : Option Nat)
  | lockdownUp (job : Option Nat)
  | join (job : Option Nat)
  | done

structure Job where
  pc : Pc
  profile : ConnectionProfile
  cancelled : Bool := false

structure State where
  tun : Option Tun := none
  lockdownTunActive : Bool := false
  -- The process, if there is one, and whether it is alive.
  engine : Option Bool := none
  tor : Bool := false
  tunBridge : Bool := false
  tunnelStarted : Bool := false
  probeFailures : Nat := 0
  lastProfile : Option ConnectionProfile := none
  runJob : Option Nat := none
  stopJob : Option Nat := none
  connection : ConnectionState := .idle
  jobs : Nat → Option Job := fun _ => none
  nextJob : Nat := 0
  destroyed : Bool := false
  -- History: the session in charge has reported Connected with a kill switch and a TUN, and nothing
  -- has happened since that takes the protection off.
  armed : Bool := false

structure Probe where
  healthy : Bool
  switched : Bool
  overdue : Bool

-- How a coroutine moves on: by itself, because it was cancelled, or as something turns out.
inductive Event
  | go
  | cancelled
  | plan (rungs : List ConnectionProfile)
  | outcome (ok : Bool)
  | probe (p : Probe)

inductive Label
  | connect (p : ConnectionProfile)
  | disconnect
  | revoke
  | destroy
  | engineDies
  | torDies
  | run (id : Nat) (e : Event)

def WATCHDOG_FAIL_CYCLES : Nat := 3
def WATCHDOG_HEALTHY_CHECKS : Nat := 3
def MAX_MIGRATES_PER_EPISODE : Nat := 2

def maxRetries (p : ConnectionProfile) : Nat :=
  if p.smartReconnect then (max 1 (min 50 p.reconnectRetryLimit.toInt)).toNat else 50

def isTor (p : ConnectionProfile) : Bool :=
  p.protocol = .tor

-- A round of the watchdog: the loop's variables, the failed probes, and whether the engine is
-- stopped. Asking for a migration opens the recovery window.
def watchEngine (w : Watch) (failures : Nat) (p : Probe) : Watch × Nat × Bool :=
  if p.healthy then
    let checks := w.healthyChecks + 1
    ({ w with
      socksOpened := true
      recovering := false
      healthyChecks := checks
      migrateStreak := if checks ≥ WATCHDOG_HEALTHY_CHECKS then 0 else w.migrateStreak }, 0, false)
  else if p.switched then
    ({ w with recovering := false }, 0, true)
  else if !w.socksOpened then
    if w.recovering && p.overdue then
      ({ w with recovering := false, migrateStreak := 0 }, 0, true)
    else
      (w, failures, false)
  else if failures + 1 ≥ WATCHDOG_FAIL_CYCLES || w.migrateStreak ≥ MAX_MIGRATES_PER_EPISODE then
    ({ w with healthyChecks := 0, migrateStreak := 0 }, 0, true)
  else
    ({ w with
      healthyChecks := 0
      migrateStreak := w.migrateStreak + 1
      socksOpened := false
      recovering := true }, failures + 1, false)

def watchTor (w : Watch) (failures : Nat) (p : Probe) : Watch × Nat × Bool :=
  if p.healthy then (w, 0, false)
  else if failures + 1 ≥ WATCHDOG_FAIL_CYCLES then (w, 0, true)
  else (w, failures + 1, false)

-- Where cancellation is noticed. The self-tests swallow it and fail instead; a coroutine that was
-- cancelled before it started never runs.
def suspends : Pc → Bool
  | .begin .. | .joinRun .. | .joinStop _ | .flow | .spawn .. | .awaitOpen .. | .watching ..
  | .respawn .. | .reopen .. | .teardown _ | .lockdown .. | .join _ => true
  | _ => false

def Pc.isDone : Pc → Bool
  | .done => true
  | _ => false

namespace State

def isDone (s : State) (id : Nat) : Bool :=
  match s.jobs id with
  | some j => j.pc.isDone
  | none => true

def isActive (s : State) (id : Nat) : Bool :=
  match s.jobs id with
  | some j => !j.cancelled && !j.pc.isDone
  | none => false

def currentScopeActive (s : State) : Bool :=
  s.runJob.any s.isActive

def setPc (s : State) (id : Nat) (j : Job) (pc : Pc) : State :=
  { s with jobs := Function.update s.jobs id (some { j with pc }) }

def cancel (s : State) (job : Option Nat) : State :=
  { s with jobs := fun i => (s.jobs i).map fun j => if job = some i then { j with cancelled := true } else j }

def launch (s : State) (pc : Pc) (profile : ConnectionProfile) : State :=
  { s with
    jobs := Function.update s.jobs s.nextJob (some { pc, profile })
    nextJob := s.nextJob + 1 }

def cleanupForwardingOnly (s : State) : State :=
  { s with tor := false, tunBridge := false, tunnelStarted := false, engine := none }

def cleanupNativeOnly (s : State) : State :=
  { s.cleanupForwardingOnly with tun := none }

def stopEverything (s : State) : State :=
  let s' := { s with connection := .disconnecting, runJob := none, armed := false }.cancel s.runJob
  { s'.launch (.teardown s.runJob) (s.lastProfile.getD {}) with stopJob := some s.nextJob }

def enterLockdown (s : State) (p : ConnectionProfile) : State :=
  let s' := { s with runJob := none }.cancel s.runJob
  { s'.launch (.lockdown p s.runJob) p with stopJob := some s.nextJob }

def startTunnel (s : State) (p : ConnectionProfile) : State :=
  { s.launch (.begin s.runJob s.stopJob) p with
    lastProfile := some p
    runJob := some s.nextJob
    armed := false }

def isAlive (s : State) (c : ConnectionProfile) : Bool :=
  if isTor c then s.tor else s.engine = some true

def stopProcess (s : State) (c : ConnectionProfile) : State :=
  if isTor c then { s with tor := false } else { s with engine := s.engine.map fun _ => false }

def startProcess (s : State) (c : ConnectionProfile) : State :=
  if isTor c then { s with tor := true } else { s with engine := some true }

-- The state is reported by the session in charge, with a kill switch and a TUN to protect.
def reportConnected (s : State) (id : Nat) (c : ConnectionProfile) : State :=
  { s with
    connection := .connected
    armed := s.armed || (s.runJob = some id && c.killSwitched && !c.proxyMode) }

-- `startTun2Socks`; without a descriptor it throws.
def startTun2Socks (s : State) (c : ConnectionProfile) : Option State :=
  if s.tun.isSome then
    if isTor c || c.blockedApps ≠ [] then some { s with tunBridge := true }
    else some { s with tunnelStarted := true }
  else
    none

-- A failed attempt goes on to the next rung; tor has none and throws.
def afterFailure : Option (List ConnectionProfile) → Pc
  | some rest => .rungFailed rest
  | none => .threw

def processDead (s : State) (id : Nat) (j : Job) (c : ConnectionProfile) (w : Watch) : State :=
  if w.attempt ≥ maxRetries c then
    if c.killSwitched then (s.enterLockdown c).setPc id j .done
    else s.setPc id j .threw
  else
    { s with connection := .reconnecting (w.attempt + 1) (maxRetries c) }.setPc id j
      (.respawn c { w with attempt := w.attempt + 1 })

def afterWatch (s : State) (id : Nat) (j : Job) (c : ConnectionProfile) (r : Watch × Nat × Bool) : State :=
  let s := { s with probeFailures := r.2.1 }
  (if r.2.2 then s.stopProcess c else s).setPc id j (.supervise c r.1)

def watchStep (s : State) (id : Nat) (j : Job) (c : ConnectionProfile) (w : Watch) (p : Probe) : State :=
  if s.isAlive c then
    s.afterWatch id j c
      (if isTor c then watchTor w s.probeFailures p else watchEngine w s.probeFailures p)
  else
    s.setPc id j (.supervise c w)

-- Every rung is a copy of the profile that keeps its switches.
def isPlan (p : ConnectionProfile) (rungs : List ConnectionProfile) : Bool :=
  rungs.all fun c => c.killSwitch = p.killSwitch && c.strictKillSwitch = p.strictKillSwitch &&
    c.proxyMode = p.proxyMode && c.protocol ≠ .tor

def goStep (s : State) (id : Nat) (j : Job) : Option State :=
  match j.pc with
  | .begin (some r) stop => some ((s.cancel (some r)).cleanupNativeOnly.setPc id j (.joinRun r stop))
  | .begin none stop => some (s.setPc id j (.joinStop stop))
  | .joinRun r stop => if s.isDone r then some (s.setPc id j (.joinStop stop)) else none
  | .joinStop stop => if stop.all s.isDone then some (s.setPc id j .flow) else none
  | .flow => if isTor j.profile then some (s.setPc id j (.attempt j.profile none)) else none
  | .threw => some ({ s with connection := .error }.cleanupNativeOnly.setPc id j .done)
  | .ladder [] => some (s.setPc id j .threw)
  | .ladder (c :: rest) => some (s.setPc id j (.attempt c (some rest)))
  | .attempt c rest =>
    some ({ s with connection := .launching, lockdownTunActive := false }.cleanupNativeOnly.setPc id j
      (.spawn c rest))
  | .rungFailed rest => some (s.cleanupNativeOnly.setPc id j (.ladder rest))
  | .won c => some ((s.reportConnected id c).setPc id j (.supervise c {}))
  | .supervise c w =>
    if !s.currentScopeActive then some (s.setPc id j .done)
    else if s.isAlive c then some (s.setPc id j (.watching c { w with attempt := 0 }))
    else some (s.processDead id j c w)
  | .teardown job => some (s.cleanupNativeOnly.setPc id j (.idle job))
  | .idle job => some ({ s with connection := .idle }.setPc id j (.join job))
  | .lockdown c job => some (s.cleanupForwardingOnly.setPc id j (.lockdownClose c job))
  | .lockdownClose c job => some ({ s with tun := none }.setPc id j (.lockdownBuild c job))
  | .lockdownUp job =>
    some ({ s with lockdownTunActive := true, connection := .error }.setPc id j (.join job))
  | .join job => if job.all s.isDone then some (s.setPc id j .done) else none
  | _ => none

def outcomeStep (s : State) (id : Nat) (j : Job) (ok : Bool) : Option State :=
  match j.pc with
  | .flow => if !isTor j.profile && !ok then some (s.setPc id j .threw) else none
  | .spawn c rest =>
    if ok then
      -- A session that is already cancelled creates no process.
      if j.cancelled && !isTor c then none
      else some ({ s.startProcess c with connection := .connecting }.setPc id j
        (if isTor c then .establish c rest else .awaitOpen c rest))
    else
      some (s.setPc id j (afterFailure rest))
  | .awaitOpen c rest =>
    some (s.setPc id j (if ok then if c.proxyMode then .proxy c rest else .establish c rest
      else afterFailure rest))
  | .proxy c rest =>
    if ok then some ({ s with connection := .verifying }.setPc id j (.verify c rest))
    else some (s.setPc id j (afterFailure rest))
  | .establish c rest =>
    if ok then some ({ s with tun := some .vpn }.setPc id j (.forward c rest))
    else some (s.setPc id j (afterFailure rest))
  | .forward c rest =>
    match if ok then s.startTun2Socks c else none with
    | some s => some ({ s with connection := .verifying }.setPc id j (.verify c rest))
    | none => some (s.setPc id j (afterFailure rest))
  | .verify c rest => some (s.setPc id j (if ok then .won c else afterFailure rest))
  | .respawn c w =>
    if ok then
      if j.cancelled && !isTor c then none
      else some ((s.startProcess c).setPc id j
        (if isTor c then .repoint c w else .reopen c { attempt := w.attempt }))
    else
      -- Only a restart of tor is guarded.
      some (s.setPc id j (if isTor c then .supervise c w else .threw))
  -- `repointTunBridge`: tor is back on another port, or it is not.
  | .repoint c w =>
    if ok && s.tunBridge then
      match { s with tunBridge := false }.startTun2Socks c with
      | some s => some (s.setPc id j (.reopen c w))
      | none => some ({ s with tunBridge := false }.setPc id j .threw)
    else
      some (s.setPc id j (.reopen c w))
  | .reopen c w =>
    if ok then some ({ s with connection := .verifying }.setPc id j (.reverify c w))
    else some (s.setPc id j (.supervise c w))
  | .reverify c w =>
    if ok then some ((s.reportConnected id c).setPc id j (.supervise c { w with attempt := 0 }))
    else some ((s.stopProcess c).setPc id j (.supervise c w))
  -- A builder that fails leaves no interface.
  | .lockdownBuild _ job =>
    some ({ s with tun := if ok then some .blackhole else none }.setPc id j (.lockdownUp job))
  | _ => none

def jobStep (s : State) (id : Nat) (j : Job) : Event → Option State
  | .go => s.goStep id j
  | .cancelled => if j.cancelled && suspends j.pc then some (s.setPc id j .done) else none
  | .plan rungs =>
    match j.pc with
    | .flow =>
      if !isTor j.profile && isPlan j.profile rungs then
        some ({ s with connection := .launching }.setPc id j (.ladder rungs))
      else
        none
    | _ => none
  | .outcome ok => s.outcomeStep id j ok
  | .probe p =>
    match j.pc with
    | .watching c w => some (s.watchStep id j c w p)
    | _ => none

def step (s : State) : Label → Option State
  | .connect p => if s.destroyed then none else some (s.startTunnel p)
  | .disconnect =>
    if s.destroyed then none
    else if s.lockdownTunActive then some s.stopEverything
    else match s.lastProfile with
      | some last => some (if last.strictKillSwitch then s.enterLockdown last else s.stopEverything)
      | none => some s.stopEverything
  | .revoke => if s.destroyed then none else some s.stopEverything
  | .destroy =>
    if s.destroyed then none
    else some { s.cleanupNativeOnly with
      destroyed := true
      jobs := fun i => (s.jobs i).map fun j => { j with cancelled := true } }
  | .engineDies => s.engine.map fun _ => { s with engine := some false }
  | .torDies => if s.tor then some { s with tor := false } else none
  | .run id e => (s.jobs id).bind fun j => s.jobStep id j e

end State

end App.VpnService
