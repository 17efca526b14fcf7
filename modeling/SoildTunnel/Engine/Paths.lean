import SoildTunnel.Engine.ZeroTrust
import SoildTunnel.Lib.Distinct

-- The files that the engine keeps beside the one that it is configured with.
namespace Engine

open Rust ZeroTrust

namespace Paths

def inName (c : Char) : Bool :=
  c ≠ '/' && c ≠ '\\'

-- A path, cut before the last dot of its last component. Without one all of it comes first.
def cutExtension (base : Text) : Text × Text :=
  match Delimited.rcut '.' (base.rtakeWhile inName) with
  | some (stem, ext) => (base.rdropWhile inName ++ stem, '.' :: ext)
  | none => (base, [])

def deriveSiblingPath (base suffix : Text) : Text :=
  let (head, ext) := cutExtension base
  head ++ '-' :: suffix ++ ext

variable {cm : CaseMap}

-- The scope of the identities: `none` is the personal account. No path is given for a transport on
-- its own, which would be used as it is.
abbrev Scope (cm : CaseMap) := Option (Team cm)

def teamSuffix (team : Team cm) : Text :=
  "team-".toList ++ team.val

def warpConfigPath (base : Text) : Scope cm → Text
  | some team => deriveSiblingPath base (teamSuffix team)
  | none => base

def masqueConfigPath (base : Text) : Scope cm → Text
  | some team => deriveSiblingPath base (teamSuffix team)
  | none => deriveSiblingPath base "masque".toList

def configPath (base : Text) (scope : Scope cm) : Transport → Text
  | .masque => masqueConfigPath base scope
  | .wireGuard => warpConfigPath base scope

def lastconnPath (config : Text) : Text :=
  deriveSiblingPath config "lastconn".toList

-- What `run` opens files for. The second identity belongs to the classic way to nest two tunnels,
-- the gool identity to the other one; the gateways to avoid are those of MASQUE.
inductive Role
  | primary (transport : Transport)
  | secondary
  | gool
  | lastconn (transport : Transport)
  | avoid
deriving DecidableEq

def path (base : Text) (scope : Scope cm) : Role → Text
  | .primary transport => configPath base scope transport
  | .secondary => deriveSiblingPath (warpConfigPath base scope) "secondary".toList
  | .gool => deriveSiblingPath (masqueConfigPath base scope) "gool".toList
  | .lastconn transport => lastconnPath (configPath base scope transport)
  | .avoid => deriveSiblingPath (lastconnPath (masqueConfigPath base scope)) "avoid".toList

-- The identity of a team serves both transports.
def Role.merged : Role → Role
  | .primary _ => .primary .wireGuard
  | .lastconn _ => .lastconn .wireGuard
  | role => role

def kept : Scope cm → Role → Role
  | some _, role => role.merged
  | none, role => role

structure File (cm : CaseMap) where
  scope : Scope cm
  role : Role

def File.path (base : Text) (f : File cm) : Text :=
  Paths.path base f.scope f.role

def File.Separate (f g : File cm) : Prop :=
  f.scope ≠ g.scope ∨ kept f.scope f.role ≠ kept g.scope g.role

def teamOf (stem name : Text) : Option Text := do
  let rest ← Text.stripPrefix (stem ++ "-team-".toList) name
  let team ← Text.stripSuffix ".toml".toList rest
  if team = [] ∨ Text.endsWith "-secondary".toList team ∨ Text.endsWith "-lastconn".toList team then none
  else some team

-- The names are sorted by their bytes, which is the order of their characters.
def enrolledTeams (readDir : Text → Option (List Text)) (base : Text) : List Text :=
  let dir := base.rdropWhile inName
  let name := base.rtakeWhile inName
  let stem := ((Delimited.rcut '.' name).map Prod.fst).getD name
  match readDir (if dir = [] then ".".toList else dir) with
  | some entries => (Distinct.distinct (entries.filterMap (teamOf stem))).mergeSort (· ≤ ·)
  | none => []

end Paths

end Engine
