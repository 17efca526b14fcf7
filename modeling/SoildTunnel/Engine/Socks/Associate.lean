import SoildTunnel.Engine.Socks.Target
import SoildTunnel.Lib.Lts

-- UDP ASSOCIATE: a relay socket that serves a single client.
namespace Engine.Socks

open Rust

def normalizeIp : IpAddr → IpAddr
  | .v6 ip =>
    match ip.toIpv4Mapped with
    | some v4 => .v4 v4
    | none => .v6 ip
  | other => other

def expectedUdpSource (controlPeer : SocketAddr) : Target → IpAddr
  | .ip ip => if ip.isUnspecified then normalizeIp controlPeer.ip else normalizeIp ip
  | .domain _ => normalizeIp controlPeer.ip

def udpSourceAllowed (expectedIp : IpAddr) (latched : Option SocketAddr) (source : SocketAddr) : Bool :=
  match latched with
  | some known => known = source
  | none => normalizeIp source.ip = normalizeIp expectedIp

-- Fragments are not supported.
def parseUdpRequest : Bytes → Option (Target × UInt16 × Bytes)
  | _ :: _ :: frag :: atyp :: rest => if frag ≠ 0 then none else readTarget atyp rest
  | _ => none

def buildUdpReply (src : SocketAddr) (data : Bytes) : Bytes :=
  let addr := match src.ip with
    | .v4 ip => ATYP_V4 :: ip.toList
    | .v6 ip => ATYP_V6 :: ip.toList
  [0x00, 0x00, 0x00] ++ addr ++ Octets.toBytes16 src.port ++ data

inductive UdpEvent
  | arrived (source : SocketAddr) (datagram : Bytes)
  | tunnelled (source : SocketAddr) (dst : Target) (port : UInt16) (payload : Bytes)
  | direct (source dst : SocketAddr) (payload : Bytes)
  | replied (dst : SocketAddr) (datagram : Bytes)

structure Association where
  expectedIp : IpAddr
  client : Option SocketAddr := none
  refused : Nat := 0
  closed : Bool := false
  events : List UdpEvent := []

-- The branches of the `select!`; `found` is what a name of a direct datagram resolves to.
inductive AssociationLabel
  | relay (source : SocketAddr) (datagram : Bytes) (found : Option SocketAddr)
  | relayFailed
  | stack (src : SocketAddr) (data : Bytes)
  | stackClosed
  | direct (source : SocketAddr) (data : Bytes)
  | directFailed
  | control (closed : Bool)

namespace Association

def init (controlPeer : SocketAddr) (requested : Target) : Association where
  expectedIp := expectedUdpSource controlPeer requested

def BUFFER : Nat := 65535

variable (cm : CaseMap) (set : RuleSet)

def forward (source : SocketAddr) (found : Option SocketAddr) (datagram : Bytes) : List UdpEvent :=
  match parseUdpRequest datagram with
  | none => []
  | some (dst, port, payload) =>
    match set.decide cm (hostOf dst) port with
    | .block => []
    | .direct =>
      let outside : Option SocketAddr := match dst with
        | .ip ip => some ⟨ip, port⟩
        | .domain _ => found
      (outside.map (UdpEvent.direct source · payload)).toList
    | .proxy => [.tunnelled source dst port payload]

def fromRelay (s : Association) (source : SocketAddr) (datagram : Bytes) (found : Option SocketAddr) : Association :=
  let datagram := datagram.take BUFFER
  let s := { s with events := s.events ++ [UdpEvent.arrived source datagram] }
  if udpSourceAllowed s.expectedIp s.client source then
    { s with client := s.client.or (some source), events := s.events ++ forward cm set source found datagram }
  else
    { s with refused := s.refused + 1 }

def reply (s : Association) (src : SocketAddr) (data : Bytes) : Association :=
  match s.client with
  | some client => { s with events := s.events ++ [.replied client (buildUdpReply src data)] }
  | none => s

def step (s : Association) (l : AssociationLabel) : Option Association :=
  if s.closed then none
  else some <| match l with
    | .relay source datagram found => s.fromRelay cm set source datagram found
    | .stack src data => s.reply src data
    | .direct source data => s.reply source (data.take BUFFER)
    | .directFailed => s
    | .relayFailed | .stackClosed => { s with closed := true }
    | .control closed => { s with closed }

end Association

end Engine.Socks
