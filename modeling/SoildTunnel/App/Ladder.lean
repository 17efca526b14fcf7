import SoildTunnel.App.SmartAuto

-- How a session gets to its strategies, walks the ladder, and what it remembers of the winner.
namespace App.SmartAuto

open Kotlin

-- `StickyServer`
namespace StickyServer

structure Pin where
  range : Text
  savedAt : Int
  untilMs : Int
deriving DecidableEq

def TTL_MS : Int := 24 * 60 * 60 * 1000

def load (prefs : Option Pin) : Option Pin :=
  prefs.bind fun pin =>
    let range := pin.range.trim
    if range = [] then none else some { pin with range }

-- The pin, and what is left of the preferences.
def usable (prefs : Option Pin) (now : Int) : Option Pin × Option Pin :=
  match load prefs with
  | none => (none, prefs)
  | some pin => if now ≥ pin.untilMs then (none, none) else (some pin, prefs)

def save (range : Text) (now : Int) : Option Pin :=
  some ⟨range, now, now + TTL_MS⟩

end StickyServer

-- `StrategyMemo`. What is written there is read back as it was.
namespace StrategyMemo

abbrev Prefs := Text → Option Recipe

def TTL_MS : Int := 24 * 60 * 60 * 1000

def keyOf (fp : NetworkFingerprint) : Text :=
  fp.dpiClass.name ++ lit "|" ++ fp.operatorName ++ lit "|" ++ (if fp.iranCellular then lit "cell" else lit "net")

def record (prefs : Prefs) (fp : NetworkFingerprint) (recipe : Recipe) : Prefs :=
  Function.update prefs (keyOf fp) (some recipe)

def forget (prefs : Prefs) (fp : NetworkFingerprint) : Prefs :=
  Function.update prefs (keyOf fp) none

def recallRecipe (prefs : Prefs) (fp : NetworkFingerprint) (now : Int) : Option Recipe × Prefs :=
  match prefs (keyOf fp) with
  | none => (none, prefs)
  | some recipe => if now - recipe.wonAt > TTL_MS then (none, forget prefs fp) else (some recipe, prefs)

end StrategyMemo

inductive Attempt
  | connected
  | failed
  | cancelled

inductive Outcome
  | won (p : ConnectionProfile)
  | failed
  | cancelled
deriving DecidableEq

def runLadder (attempt : ConnectionProfile → Attempt) : List AutoCandidate → Outcome
  | [] => .failed
  | c :: plan =>
    match attempt c.profile with
    | .connected => .won c.profile
    | .failed => runLadder attempt plan
    | .cancelled => .cancelled

structure Stores where
  sticky : Option StickyServer.Pin
  memo : StrategyMemo.Prefs

-- The clock, when the pin is read, the memory is asked, the winner is noted down and a pin is saved.
structure Times where
  opened : Int
  probed : Int
  won : Int
  saved : Int

def keepSticky (user won : ConnectionProfile) (sticky : Option StickyServer.Pin) (now : Int)
    (prefs : Option StickyServer.Pin) : Option StickyServer.Pin :=
  if user.endpointMode = .auto ∧ !won.manualRange.isBlank then
    match sticky with
    | some pin => if pin.range <:+: won.manualRange then prefs else none
    | none => StickyServer.save won.manualRange.trim now
  else
    prefs

def connectSmartAuto (user : ConnectionProfile) (fp : NetworkFingerprint) (times : Times)
    (attempt : ConnectionProfile → Attempt) (stores : Stores) : Stores × Outcome :=
  let (sticky, stickyPrefs) := StickyServer.usable stores.sticky times.opened
  let (memo, memoPrefs) := StrategyMemo.recallRecipe stores.memo fp times.probed
  let plan := buildPlan user fp (sticky.map StickyServer.Pin.range) memo
  match runLadder attempt plan with
  | .won won =>
    ({ sticky := keepSticky user won sticky times.saved stickyPrefs
       memo := StrategyMemo.record memoPrefs fp (recipeOf won times.won) }, .won won)
  | .failed => ({ sticky := stickyPrefs, memo := StrategyMemo.forget memoPrefs fp }, .failed)
  | .cancelled => ({ sticky := stickyPrefs, memo := memoPrefs }, .cancelled)

def FIRST_PASS_MAX_MS : Nat := 75000
def GOOL_CARRIED_EXTRA_MS : Nat := 60000

section Direct

variable (profile : ConnectionProfile)

def effective : ConnectionProfile :=
  if (profile.protocol = .gool ∧ profile.goolMode = .onMasque ∨ profile.protocol = .soild ∧ profile.soildHunt) ∧
      profile.endpointMode ≠ .auto then
    { profile with endpointMode := .auto, manualRange := [], manualPeer := [] }
  else
    profile

def hardened : ConnectionProfile :=
  let masque := profile.protocol = .masque
  { profile with
    noize := if profile.noize = .off then .firewall else profile.noize
    masqueHttp2 := profile.masqueHttp2 || masque
    fragment := profile.fragment || masque
    ech := profile.ech || masque }

-- A protocol that was picked by hand is tried as it is, and then with everything against filters.
def directPlan : List AutoCandidate :=
  let effective := effective profile
  let fullBudget := effective.connectTimeoutMs
  let hardened := hardened effective
  let asConfigured := lit (Enum.name effective.protocol) ++ lit " · as configured"
  if hardened = effective then [⟨effective, fullBudget, asConfigured⟩]
  else
    let firstPassMax :=
      if effective.protocol = .gool ∨ effective.protocol = .soild ∧ effective.soildHunt then
        FIRST_PASS_MAX_MS + GOOL_CARRIED_EXTRA_MS
      else
        FIRST_PASS_MAX_MS
    [⟨effective, min fullBudget firstPassMax, asConfigured⟩,
      ⟨hardened, fullBudget, lit (Enum.name effective.protocol) ++ lit " · noize=" ++
        lowercase (Enum.name hardened.noize) ++
        (if effective.protocol = .masque then lit " · h2 · fragment · ech" else []) ++ lit " (anti-DPI pass)"⟩]

end Direct

end App.SmartAuto
