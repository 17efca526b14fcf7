import SoildTunnel.Engine.Cli
import SoildTunnel.Engine.Routing

-- Where the routing rules come from: two variables, and a file with a section for each list.
namespace Engine

open Rust

inductive RuleList
  | block
  | direct
deriving DecidableEq

structure Sections where
  block : Text := []
  direct : Text := []
  current : Option RuleList := none

namespace RuleSet

variable (cm : CaseMap) (rs : RuleSyntax)

def pushList (target extra : Text) : Text :=
  if extra.trim = [] then target
  else (if target.trim ≠ [] then target ++ ['\n'] else target) ++ extra

def sectionLine (s : Sections) (line : Text) : Sections :=
  let trimmed := line.trim
  if trimmed = [] ∨ trimmed.head? = some '#' then s
  else
    let lowered := cm.toLowercase trimmed
    if lowered = "[block]".toList then { s with current := some .block }
    else if lowered = "[direct]".toList then { s with current := some .direct }
    else if lowered.head? = some '[' then { s with current := none }
    else match s.current with
      | some .block => { s with block := s.block ++ trimmed ++ ['\n'] }
      | some .direct => { s with direct := s.direct ++ trimmed ++ ['\n'] }
      | none => s

def splitSections (text : Text) : Sections :=
  text.lines.foldl (sectionLine cm) {}

-- `from_env`. A file that cannot be read counts as none.
def fromEnv (env : Cli.Env) (readToString : Text → Option Text) : RuleSet :=
  let block := (env .ROUTE_BLOCK).getD []
  let direct := (env .ROUTE_DIRECT).getD []
  match (env .ROUTES_FILE).bind readToString with
  | some text =>
    let file := splitSections cm text
    parse cm rs (pushList block file.block) (pushList direct file.direct)
  | none => parse cm rs block direct

end RuleSet

end Engine
