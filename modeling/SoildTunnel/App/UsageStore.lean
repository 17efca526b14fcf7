import Mathlib

-- The history of the traffic of each session, in memory and in the preferences. The calls come one
-- after another.
namespace App.UsageStore

structure Session where
  startedAt : Int
  endedAt : Int
  rxBytes : Int
  txBytes : Int
deriving DecidableEq

abbrev JSONObject := List (String × Int)

def MAX_SESSIONS : Nat := 60

def toJson (s : Session) : JSONObject :=
  [("s", s.startedAt), ("e", s.endedAt), ("rx", s.rxBytes), ("tx", s.txBytes)]

def fromJson (o : JSONObject) : Option Session := do
  return ⟨← o.lookup "s", ← o.lookup "e", ← o.lookup "rx", ← o.lookup "tx"⟩

structure Prefs where
  history : Option (List JSONObject) := none
  current : Option JSONObject := none
deriving DecidableEq

structure Traffic where
  downloadBytes : Int
  uploadBytes : Int

-- What `HevTunnel.traffic` and `ShareBridge.traffic` return in one round of the sampler.
structure Reading where
  hev : Option Traffic
  share : Traffic

def long (n : Int) : Int :=
  n.bmod (2 ^ 64)

def Reading.down (r : Reading) : Int :=
  max (long ((r.hev.map (·.downloadBytes)).getD 0 + r.share.downloadBytes)) 0

def Reading.up (r : Reading) : Int :=
  max (long ((r.hev.map (·.uploadBytes)).getD 0 + r.share.uploadBytes)) 0

structure Store where
  prefs : Prefs := {}
  current : Option Session := none
  -- The history: `apply` writes in the background, so that a process which is killed leaves one of
  -- these behind; and the times of the sessions that were started.
  written : List Prefs := [{}]
  starts : List Int := []
deriving DecidableEq

namespace Store

def apply (u : Store) (prefs : Prefs) : Store :=
  { u with prefs, written := u.written ++ [prefs] }

def history (prefs : Prefs) : List Session :=
  ((prefs.history.getD []).mapM fromJson).getD []

def loadCurrent (prefs : Prefs) : Option Session :=
  prefs.current.bind fromJson

def init (u : Store) (prefs : Prefs) : Store :=
  { u with prefs, current := loadCurrent prefs, written := [prefs] }

def liveSession (u : Store) : Option Session :=
  u.current.filter (·.endedAt = 0)

def persistCurrent (u : Store) : Store :=
  match u.current with
  | none => u
  | some session => u.apply { u.prefs with current := some (toJson session) }

-- What is left of the list after entries were taken off its end.
def persistFinalized (u : Store) : Store :=
  match u.current with
  | none => u
  | some session =>
    let list := (session :: history u.prefs).take MAX_SESSIONS
    { u.apply { history := some (list.map toJson), current := none } with current := none }

def accumulate (u : Store) (r : Reading) : Store :=
  match u.current with
  | none => u
  | some session =>
    persistCurrent { u with current := some { session with
      rxBytes := max session.rxBytes r.down
      txBytes := max session.txBytes r.up } }

def startSession (u : Store) (staleEnd now : Int) : Store :=
  let u := match u.liveSession with
    | some stale =>
      if stale.rxBytes > 0 ∨ stale.txBytes > 0 then
        persistFinalized { u with current := some { stale with endedAt := staleEnd } }
      else u
    | none => u
  persistCurrent { u with current := some ⟨now, 0, 0, 0⟩, starts := u.starts ++ [now] }

def endSession (u : Store) (r : Reading) (now : Int) : Store :=
  let u := u.accumulate r
  match u.current with
  | none => u
  | some session =>
    if session.rxBytes > 0 ∨ session.txBytes > 0 then
      persistFinalized { u with current := some { session with endedAt := now } }
    else { u.apply { u.prefs with current := none } with current := none }

end Store

-- After a `restart` the process finds all that was applied before.
inductive Call
  | startSession (staleEnd now : Int)
  | accumulate (reading : Reading)
  | endSession (reading : Reading) (now : Int)
  | restart

def Store.call (u : Store) : Call → Store
  | .startSession staleEnd now => u.startSession staleEnd now
  | .accumulate reading => u.accumulate reading
  | .endSession reading now => u.endSession reading now
  | .restart => u.init u.prefs

-- A process that is killed may have lost what it wrote last.
inductive Event
  | call (c : Call)
  | kill (k : Nat)

def step (u : Store) : Event → Option Store
  | .call c => some (u.call c)
  | .kill k => u.written[k]?.map u.init

end App.UsageStore
