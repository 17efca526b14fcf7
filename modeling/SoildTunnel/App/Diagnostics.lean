import Mathlib

-- The self-test of the local SOCKS5 proxy, and what it leaves in the diagnostics log.
namespace App.Diagnostics

inductive Component
  | port
  | handshake
  | tcp
  | dns
deriving DecidableEq

inductive CheckState
  | pending
  | running
  | pass
  | fail
deriving DecidableEq

structure ComponentCheck where
  id : Component
  state : CheckState := .pending
  detail : String := ""
deriving DecidableEq

structure IpInfo where
  ip : String
  countryCode : Option String

def resetChecks : List ComponentCheck :=
  [{ id := .port }, { id := .handshake }, { id := .tcp }, { id := .dns }]

def updateCheck (id : Component) (state : CheckState) (detail : Option String) (checks : List ComponentCheck) :
    List ComponentCheck :=
  checks.map fun c => if c.id = id then { c with state, detail := detail.getD c.detail } else c

def failRemaining (ids : List Component) (checks : List ComponentCheck) : List ComponentCheck :=
  ids.foldl (fun checks id => updateCheck id .fail (some "skipped") checks) checks

def verdict (ok : Bool) : CheckState :=
  if ok then .pass else .fail

-- Where a cancellation is noticed. The two outbound checks run beside each other and wait between
-- their attempts; they have come as far as the log says.
inductive Interruption
  | beforeStart
  | outbound (tcp dns : CheckState)
  | atReturn
deriving DecidableEq

-- What the probes find. An outbound check is tried again until the grace period ends; `tcpAgain` and
-- `infoAgain` are the further attempts that there is time for.
structure Probes where
  port : Bool
  handshake : Bool
  tcp : Bool
  tcpAgain : List Bool := []
  info : Option IpInfo
  infoAgain : List (Option IpInfo) := []
  interruption : Option Interruption := none

def retry {α : Type} (ok : α → Bool) (result : α) : List α → α
  | [] => result
  | again :: rest => if ok result then result else retry ok again rest

namespace Probes

def tcpOk (p : Probes) : Bool :=
  retry id p.tcp p.tcpAgain

def found (p : Probes) : Option IpInfo :=
  retry Option.isSome p.info p.infoAgain

def dnsOk (p : Probes) : Bool :=
  p.found.isSome

end Probes

def dnsDetail : Option IpInfo → String
  | some info => "exit " ++ info.ip ++ " " ++ info.countryCode.getD "?"
  | none => "no response"

-- `run`, from the log as it is. There is no result if the coroutine is cancelled on the way.
def run (checks : List ComponentCheck) (p : Probes) : List ComponentCheck × Option Bool :=
  if p.interruption = some .beforeStart then
    (checks, none)
  else
    let checks := updateCheck .port (verdict p.port) (some (if p.port then "listening" else "no listener")) resetChecks
    if !p.port then
      (failRemaining [.handshake, .tcp, .dns] checks, some false)
    else
      let checks := updateCheck .handshake (verdict p.handshake) none checks
      if !p.handshake then
        (failRemaining [.tcp, .dns] checks, some false)
      else
        match p.interruption with
        | some (.outbound tcp dns) => (updateCheck .dns dns none (updateCheck .tcp tcp none checks), none)
        | stop =>
          let checks := updateCheck .tcp (verdict p.tcpOk) none checks
          let checks := updateCheck .dns (verdict p.dnsOk) (some (dnsDetail p.found)) checks
          (checks, if stop = some .atReturn then none else some p.dnsOk)

-- The callers take a failure of the self-test itself for a failed test.
def selfTest (checks : List ComponentCheck) (p : Probes) : List ComponentCheck × Bool :=
  ((run checks p).1, (run checks p).2.getD false)

def stateOf (checks : List ComponentCheck) (id : Component) : Option CheckState :=
  (checks.find? (·.id = id)).map (·.state)

end App.Diagnostics
