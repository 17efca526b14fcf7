import Mathlib

-- Addresses as the engine's standard library has them, and the transports.
namespace Engine

abbrev Bytes := List UInt8

abbrev Ipv4Addr := Vector UInt8 4

abbrev Ipv6Addr := Vector UInt8 16

namespace Ipv4Addr

def new (a b c d : UInt8) : Ipv4Addr := #v[a, b, c, d]

def setLast (ip : Ipv4Addr) (f : UInt8 → UInt8) : Ipv4Addr := ip.set 3 (f ip[3])

def isUnspecified (ip : Ipv4Addr) : Bool := ip = new 0 0 0 0

def isBroadcast (ip : Ipv4Addr) : Bool := ip = new 255 255 255 255

def isMulticast (ip : Ipv4Addr) : Bool := ip[0] ≥ 224 && ip[0] ≤ 239

def isLoopback (ip : Ipv4Addr) : Bool := ip[0] = 127

def isLinkLocal (ip : Ipv4Addr) : Bool := ip[0] = 169 && ip[1] = 254

def isPrivate (ip : Ipv4Addr) : Bool :=
  ip[0] = 10 || (ip[0] = 172 && ip[1] ≥ 16 && ip[1] ≤ 31) || (ip[0] = 192 && ip[1] = 168)

def isDocumentation (ip : Ipv4Addr) : Bool :=
  (ip[0] = 192 && ip[1] = 0 && ip[2] = 2) || (ip[0] = 198 && ip[1] = 51 && ip[2] = 100) ||
    (ip[0] = 203 && ip[1] = 0 && ip[2] = 113)

end Ipv4Addr

namespace Ipv6Addr

def unspecified : Ipv6Addr := Vector.replicate 16 0

def setLast (ip : Ipv6Addr) (f : UInt8 → UInt8) : Ipv6Addr := ip.set 15 (f ip[15])

def isUnspecified (ip : Ipv6Addr) : Bool := ip = unspecified

def isLoopback (ip : Ipv6Addr) : Bool := ip = unspecified.setLast fun _ => 1

def isMulticast (ip : Ipv6Addr) : Bool := ip[0] = 255

end Ipv6Addr

inductive IpAddr
  | v4 (ip : Ipv4Addr)
  | v6 (ip : Ipv6Addr)
deriving DecidableEq

def IpAddr.isUnspecified : IpAddr → Bool
  | .v4 ip => ip.isUnspecified
  | .v6 ip => ip.isUnspecified

def IpAddr.isLoopback : IpAddr → Bool
  | .v4 ip => ip.isLoopback
  | .v6 ip => ip.isLoopback

structure SocketAddr where
  ip : IpAddr
  port : UInt16
deriving DecidableEq

-- `routing::is_private`: carrier-grade NAT, unique local and link-local addresses count too.
def isPrivate : IpAddr → Bool
  | .v4 ip =>
    ip.isPrivate || ip.isLoopback || ip.isLinkLocal || ip.isBroadcast || ip.isDocumentation ||
      ip.isUnspecified || (ip[0] = 100 && ip[1] ≥ 64 && ip[1] < 128)
  | .v6 ip =>
    ip.isLoopback || ip.isUnspecified || (ip[0] &&& 0xfe) = 0xfc ||
      (ip[0] = 0xfe && (ip[1] &&& 0xc0) = 0x80)

inductive Transport
  | masque
  | wireGuard
deriving DecidableEq

end Engine
