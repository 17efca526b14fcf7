import SoildTunnel.Engine.Masque
import SoildTunnel.Engine.Netstack.Run

-- `establish_masque`: the addresses that the edge assigns on the control stream travel through the
-- bridge task into the stack.
namespace Engine.Tunnel

open Masque Netstack

def bridgeCmd (a : AssignedAddr) : Cmd :=
  match a.ip with
  | .v4 ip => .setAddrs (some (ip, a.prefixLen)) none
  | .v6 ip => .setAddrs none (some (ip, a.prefixLen))

structure State (tier : Tier) where
  -- The configured addresses.
  v4 : Option (Ipv4Addr × UInt8)
  v6 : Option (Ipv6Addr × UInt8)
  -- The buffer of the capsule parser, and what was drained from it but not sent on yet.
  capsules : Bytes := []
  drained : List AssignedAddr := []
  addrs : Mpsc AssignedAddr 8 := .empty
  -- The address for which the bridge task waits to send its command.
  sending : Option AssignedAddr := none
  cmds : Mpsc Cmd 256 := .empty
  -- The stack; its task is gone once it has panicked.
  net : Option (Netstack.State tier)
  -- The addresses whose commands the stack has taken up.
  processed : List AssignedAddr := []

inductive Label
  -- The stream yields some reads of its body, which are drained together.
  | body (reads : List Bytes)
  | offer
  | recv
  | send
  -- A command of another task.
  | request (c : Cmd)
  | command (connects : Bool)
  | net (l : Netstack.Label)

def isSetAddrs : Cmd → Bool
  | .setAddrs _ _ => true
  | _ => false

def isCmd : Netstack.Label → Bool
  | .cmd _ _ => true
  | _ => false

def assigned : Cmd → Option AssignedAddr
  | .setAddrs (some (ip, p)) none => some ⟨.v4 ip, p⟩
  | .setAddrs none (some (ip, p)) => some ⟨.v6 ip, p⟩
  | _ => none

namespace State

variable {tier : Tier}

def init (v4 : Option (Ipv4Addr × UInt8)) (v6 : Option (Ipv6Addr × UInt8)) : State tier where
  v4 := v4
  v6 := v6
  net := (applyAddrs {} v4 v6).map Netstack.State.init

-- The stack takes up a command; a panic ends its task, and with it the receiver of the commands.
def handle (s : State tier) (n : Netstack.State tier) (cmds : Mpsc Cmd 256) (c : Cmd)
    (connects : Bool) : State tier :=
  match n.command c connects with
  | some n => { s with cmds, net := some n, processed := s.processed ++ (assigned c).toList }
  | none =>
    { s with cmds := cmds.dropReceiver, net := none, processed := s.processed ++ (assigned c).toList }

def step (abi : Abi) (s : State tier) : Label → Option (State tier)
  | .body reads =>
    if s.drained = [] then
      let (drained, capsules) := drainCapsules abi (reads.foldl CapsuleParser.push s.capsules)
      some { s with drained, capsules }
    else
      none
  -- An address that finds its channel full is dropped.
  | .offer =>
    match s.drained with
    | [] => none
    | a :: drained => some { s with drained, addrs := (s.addrs.trySend a).getD s.addrs }
  | .recv =>
    if s.sending = none then
      s.addrs.recv.map fun (a, addrs) => { s with addrs, sending := some a }
    else
      none
  | .send =>
    s.sending.bind fun a =>
      if s.cmds.closed then
        some { s with sending := none }
      else
        (s.cmds.trySend (bridgeCmd a)).map fun cmds => { s with cmds, sending := none }
  | .request c =>
    if isSetAddrs c then none else (s.cmds.trySend c).map fun cmds => { s with cmds }
  | .command connects =>
    s.net.bind fun n =>
      if n.phase = .select then
        s.cmds.recv.map fun (c, cmds) => s.handle n cmds c connects
      else
        none
  | .net l =>
    if isCmd l then none else
      s.net.bind fun n => (n.step l).map fun n => { s with net := some n }

end State

end Engine.Tunnel
