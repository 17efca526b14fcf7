import SoildTunnel.Engine.Sniff
import SoildTunnel.Engine.Socks.Target

-- The routing decision of a CONNECT request.
namespace Engine.Socks

open Rust

inductive Read
  | data (bytes : Bytes)
  | closed
  | failed
  | timeout

-- One read, of at most `PEEK_BUDGET` bytes; without a client there is nothing to decide.
def readSniffHead : Read → Option Bytes
  | .data bytes => some (bytes.take Sniff.PEEK_BUDGET)
  | .closed | .failed => none
  | .timeout => some []

variable (cm : CaseMap) (set : RuleSet) (sniffEnabled : Bool)

-- Only an address is looked behind, and only when a rule could use the name.
def sniffs : Target → Bool
  | .ip _ => sniffEnabled && set.hasDomainRules
  | .domain _ => false

def named (target : Target) (head : Bytes) : Option Text :=
  if sniffs set sniffEnabled target then
    if head = [] then none else Sniff.hostname cm head
  else
    none

def connectAction (target : Target) (port : UInt16) (head : Bytes) : Action :=
  decideRoute cm set target (named cm set sniffEnabled target head) port

-- `handle_connect` up to the decision: `none` when the client is gone before there is one.
def handleConnect (target : Target) (port : UInt16) (read : Read) : Option Action :=
  if sniffs set sniffEnabled target then
    (readSniffHead read).map (connectAction cm set sniffEnabled target port)
  else
    some (connectAction cm set sniffEnabled target port [])

end Engine.Socks
