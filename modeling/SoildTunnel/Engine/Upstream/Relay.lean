import SoildTunnel.Engine.Net
import SoildTunnel.Lib.Lts

-- UDP through the upstream proxy: sockets that are given a detour send to a loopback shim, and a
-- pump task carries what arrives there to the proxy's relay.
namespace Engine.Upstream

-- What the code relies on: a socket that is bound to the unspecified address reaches a loopback
-- listener from a loopback address.
structure Os where
  source : SocketAddr → SocketAddr → SocketAddr
  source_loopback {bound dst : SocketAddr} :
    bound.ip.isUnspecified → dst.ip.isLoopback → (source bound dst).ip.isLoopback

def Os.linux : Os where
  source bound dst := if bound.ip.isUnspecified then ⟨dst.ip, bound.port⟩ else bound
  source_loopback hb hd := by rwa [if_pos hb]

structure NoizeConfig where
  jcBeforeHs : Nat
  jcAfterI1 : Nat
  jmin : Nat
  jmax : Nat
  i1 : Option String
  i2 : Option String
deriving DecidableEq

namespace NoizeConfig

def off : NoizeConfig := ⟨0, 0, 0, 0, none, none⟩

def light : NoizeConfig := ⟨1, 0, 32, 96, some "<b 0d0a0d0a><t><r 16>", none⟩

def firewall : NoizeConfig := ⟨2, 2, 48, 190, some "<b 0d0a0d0a><t><r 24>", some "<r 48>"⟩

def gfw : NoizeConfig := ⟨2, 1, 64, 256, some "<b 0d0a0d0a><t><r 24>", some "<r 32>"⟩

def fromProfile (name : String) : NoizeConfig :=
  if name = "off" ∨ name = "none" then off
  else if name = "light" then light
  else if name = "gfw" ∨ name = "aggressive" ∨ name = "heavy" then gfw
  else firewall

def isEnabled (cfg : NoizeConfig) : Bool :=
  cfg.jcBeforeHs > 0 || cfg.jcAfterI1 > 0 || cfg.i1.isSome

-- The packets that `junk_packet` can make.
def isJunk (cfg : NoizeConfig) (packet : Bytes) : Bool :=
  let (lo, hi) := if cfg.jmax > cfg.jmin && cfg.jmin > 0 then (cfg.jmin, cfg.jmax) else (40, 90)
  lo ≤ packet.length && packet.length ≤ hi

-- The random parts of a pre-handshake: the junk packets, and what the two signatures expand to.
structure Draw where
  before : List Bytes
  after : List Bytes
  i1 : Bytes
  i2 : Bytes

def draws (cfg : NoizeConfig) (draw : Draw) : Bool :=
  draw.before.length = cfg.jcBeforeHs && draw.after.length = cfg.jcAfterI1 &&
    draw.before.all cfg.isJunk && draw.after.all cfg.isJunk

-- A signature that expands to nothing is not sent.
def signature (spec : Option String) (packet : Bytes) : List Bytes :=
  if spec.isSome && packet ≠ [] then [packet] else []

def preHandshake (cfg : NoizeConfig) (draw : Draw) : List Bytes :=
  if cfg.isEnabled then
    draw.before ++ signature cfg.i1 draw.i1 ++ draw.after ++ signature cfg.i2 draw.i2
  else
    []

end NoizeConfig

structure Detour where
  shim : SocketAddr
  peer : SocketAddr
deriving DecidableEq

abbrev Detours := SocketAddr → Option Detour

def relayTarget (detours : Detours) (bound intended : SocketAddr) : SocketAddr :=
  match detours bound with
  | some d => d.shim
  | none => intended

inductive SockKind
  -- `quic::run` and `do_migrate`.
  | masque
  -- `verify_masque`.
  | verify
  -- `bind_via_upstream`.
  | plain
  -- `run_tuic`, which asks for no detour.
  | tuic
deriving DecidableEq

structure Sock where
  kind : SockKind
  bound : SocketAddr
  peer : SocketAddr
  -- The pre-handshake that is still to be made.
  noize : Option NoizeConfig := none
  -- Where the socket is connected to.
  target : Option SocketAddr := none
  -- History: the shim that was made for the socket, whether a pump of its address has ended since,
  -- and whether one had when the socket was connected.
  shim : Option SocketAddr := none
  torn : Bool := false
  tornAtConnect : Bool := false
deriving DecidableEq

structure Pump where
  shim : SocketAddr
  client : SocketAddr
  peer : SocketAddr
deriving DecidableEq

structure Datagram where
  owner : Sock
  src : SocketAddr
  dst : SocketAddr
  payload : Bytes
deriving DecidableEq

-- A socket and the pump of its detour have the same number. What was sent, what the pumps passed to
-- the relay (with the peer it is for) and what they sent back is remembered.
structure State where
  detours : Detours := fun _ => none
  next : Nat := 0
  sockets : Nat → Option Sock := fun _ => none
  pumps : Nat → Option Pump := fun _ => none
  sent : List Datagram := []
  forwarded : List (Bytes × SocketAddr) := []
  replies : List (SocketAddr × Bytes) := []

inductive Label
  -- A socket is bound to a free port and, but for TUIC, is given its detour.
  | bind (kind : SockKind) (peer : SocketAddr) (port shimPort : UInt16) (noize : Option NoizeConfig)
  | connect (id : Nat)
  | preHandshake (id : Nat) (draw : NoizeConfig.Draw)
  | flush (id : Nat) (payload : Bytes)
  | send (id : Nat) (payload : Bytes)
  | close (id : Nat)
  | pumpRead (id : Nat) (d : Datagram)
  | relayRead (id : Nat) (payload : Bytes)
  -- An error at either end, such as a malformed header, ends the pump.
  | pumpEnds (id : Nat)

def unspecified : IpAddr → IpAddr
  | .v4 _ => .v4 (.new 0 0 0 0)
  | .v6 _ => .v6 .unspecified

def bindAddrFor (peer : SocketAddr) (port : UInt16) : SocketAddr :=
  ⟨unspecified peer.ip, port⟩

def shimAddr (port : UInt16) : SocketAddr :=
  ⟨.v4 (.new 127 0 0 1), port⟩

namespace State

def setSock (s : State) (id : Nat) (a : Option Sock) : State :=
  { s with sockets := Function.update s.sockets id a }

-- `attach_detour`, with a proxy that is configured: a local peer is reached without it.
def attachDetour (s : State) (id : Nat) (a : Sock) (shim : SocketAddr) : State :=
  if isPrivate a.peer.ip then
    s.setSock id a
  else
    { s with
      detours := Function.update s.detours a.bound (some ⟨shim, a.peer⟩)
      pumps := Function.update s.pumps id (some ⟨shim, a.bound, a.peer⟩)
    }.setSock id (some { a with shim := some shim })

-- The entry is removed by its address, whichever socket it was made for.
def endPump (s : State) (id : Nat) (p : Pump) : State :=
  { s with
    detours := Function.update s.detours p.client none
    pumps := Function.update s.pumps id none
    sockets := fun i => (s.sockets i).map fun a =>
      if a.bound = p.client then { a with torn := true } else a }

def emit (os : Os) (s : State) (a : Sock) (dst : SocketAddr) (payload : Bytes) : State :=
  { s with sent := s.sent ++ [⟨a, os.source a.bound dst, dst, payload⟩] }

-- Neither a live socket nor a live pump has the address.
def isFree (s : State) (addr : SocketAddr) : Bool :=
  (List.range s.next).all fun i =>
    (s.sockets i).all (·.bound ≠ addr) && (s.pumps i).all (·.shim ≠ addr)

def bind (s : State) (a : Sock) (shim : SocketAddr) : State :=
  match a.kind with
  | .tuic => { s with next := s.next + 1 }.setSock s.next (some { a with target := some a.peer })
  | _ => { s with next := s.next + 1 }.attachDetour s.next a shim

def step (os : Os) (s : State) : Label → Option State
  | .bind kind peer port shimPort noize =>
    if s.isFree (bindAddrFor peer port) ∧ s.isFree (shimAddr shimPort) then
      some (s.bind { kind, bound := bindAddrFor peer port, peer, noize } (shimAddr shimPort))
    else
      none
  | .connect id =>
    (s.sockets id).bind fun a =>
      if (a.kind = .verify ∨ a.kind = .plain) ∧ a.target = none then
        some (s.setSock id (some { a with
          target := some (relayTarget s.detours a.bound a.peer)
          tornAtConnect := a.torn }))
      else
        none
  | .preHandshake id draw =>
    (s.sockets id).bind fun a => a.noize.bind fun cfg =>
      if (a.kind = .masque ∨ a.kind = .verify) ∧ cfg.draws draw then
        some (((cfg.preHandshake draw).foldl (·.emit os a a.peer ·) s).setSock id
          (some { a with noize := none }))
      else
        none
  | .flush id payload =>
    (s.sockets id).bind fun a =>
      if a.kind = .masque ∧ a.noize = none then
        some (s.emit os a (relayTarget s.detours a.bound a.peer) payload)
      else
        none
  | .send id payload =>
    (s.sockets id).bind fun a => a.target.map fun target => s.emit os a target payload
  | .close id => (s.sockets id).map fun _ => s.setSock id none
  | .pumpRead id d =>
    (s.pumps id).bind fun p =>
      if d ∈ s.sent ∧ d.dst = p.shim then
        if d.src ≠ p.client then
          some s
        else
          some { s with forwarded := s.forwarded ++ [(d.payload, p.peer)] }
      else
        none
  | .relayRead id payload =>
    (s.pumps id).map fun p => { s with replies := s.replies ++ [(p.client, payload)] }
  | .pumpEnds id => (s.pumps id).map (s.endPump id)

end State

end Engine.Upstream
