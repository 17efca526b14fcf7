import SoildTunnel.Engine.Routing

-- What a client asks the proxy for, and what the rules say about it.
namespace Engine.Socks

open Rust

def ATYP_V4 : UInt8 := 0x01
def ATYP_DOMAIN : UInt8 := 0x03
def ATYP_V6 : UInt8 := 0x04

inductive Target
  | ip (ip : IpAddr)
  | domain (name : Text)
deriving DecidableEq

def Target.display : Target → Text
  | .ip addr => addr.display
  | .domain name => name

def hostOf : Target → Host
  | .domain name => .domain name
  | .ip ip => .ip ip

def ofBytes4 : Bytes → Option Ipv4Addr
  | [a, b, c, d] => some (.new a b c d)
  | _ => none

def ofBytes16 (b : Bytes) : Option Ipv6Addr :=
  if h : b.length = 16 then some (.ofFn fun i => b.get (i.cast h.symm)) else none

def readExact (n : Nat) (b : Bytes) : Option (Bytes × Bytes) :=
  if n ≤ b.length then some (b.take n, b.drop n) else none

def readPort (b : Bytes) : Option (UInt16 × Bytes) :=
  (readExact 2 b).map fun (p, b) => (.ofNat (Octets.bigEndian p), b)

def readAddress (atyp : UInt8) (b : Bytes) : Option (Target × Bytes) :=
  if atyp = ATYP_V4 then
    (readExact 4 b).bind fun (raw, b) => (ofBytes4 raw).map fun ip => (.ip (.v4 ip), b)
  else if atyp = ATYP_V6 then
    (readExact 16 b).bind fun (raw, b) => (ofBytes16 raw).map fun ip => (.ip (.v6 ip), b)
  else if atyp = ATYP_DOMAIN then
    (readExact 1 b).bind fun (len, b) =>
      (readExact (Octets.bigEndian len) b).map fun (raw, b) => (.domain (Text.fromUtf8Lossy raw), b)
  else
    none

def readTarget (atyp : UInt8) (b : Bytes) : Option (Target × UInt16 × Bytes) :=
  (readAddress atyp b).bind fun (target, b) => (readPort b).map fun (port, b) => (target, port, b)

-- `resolve`: a name that is an address is not looked up.
def resolve (dnsResolve : Text → Option IpAddr) : Target → Option IpAddr
  | .ip ip => some ip
  | .domain name => (parseIp name).or (dnsResolve name)

variable (cm : CaseMap) (set : RuleSet)

def decideRoute (target : Target) (sniffed : Option Text) (port : UInt16) : Action :=
  match sniffed with
  | some name =>
    match set.decide cm (.domain name) port with
    | .proxy => set.decide cm (hostOf target) port
    | decided => decided
  | none => set.decide cm (hostOf target) port

end Engine.Socks
