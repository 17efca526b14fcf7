import SoildTunnel.Engine.Net

-- The interface of the stack: its addresses and default routes.
namespace Engine.Netstack

structure IpCidr where
  address : IpAddr
  prefixLen : UInt8
deriving DecidableEq

structure Interface where
  ipAddrs : List IpCidr := []
  defaultV4 : Option Ipv4Addr := none
  defaultV6 : Option Ipv6Addr := none
deriving DecidableEq

-- The library accepts unicast and unspecified addresses only, and panics at any other.
def acceptable : IpAddr → Bool
  | .v4 ip => !ip.isBroadcast && !ip.isMulticast
  | .v6 ip => !ip.isMulticast

def routablePrefixV4 (p : UInt8) : UInt8 :=
  if p ≥ 31 then 24 else p

def routablePrefixV6 (p : UInt8) : UInt8 :=
  if p ≥ 127 then 64 else p

def gatewayV4 (ip : Ipv4Addr) : Ipv4Addr :=
  ip.setLast fun o => if o = 1 then 2 else 1

def gatewayV6 (ip : Ipv6Addr) : Ipv6Addr :=
  ip.setLast fun o => if o = 1 then 2 else 1

def cidrs (v4 : Option (Ipv4Addr × UInt8)) (v6 : Option (Ipv6Addr × UInt8)) : List IpCidr :=
  (v4.map fun a => ⟨.v4 a.1, routablePrefixV4 a.2⟩).toList ++
    (v6.map fun a => ⟨.v6 a.1, routablePrefixV6 a.2⟩).toList

-- `apply_addrs`: the old addresses are cleared first, whichever of the two are given. `none` is
-- the library's panic.
def applyAddrs (iface : Interface) (v4 : Option (Ipv4Addr × UInt8))
    (v6 : Option (Ipv6Addr × UInt8)) : Option Interface :=
  if (cidrs v4 v6).all (acceptable ·.address) then
    some {
      ipAddrs := cidrs v4 v6
      defaultV4 := (v4.map fun a => gatewayV4 a.1).or iface.defaultV4
      defaultV6 := (v6.map fun a => gatewayV6 a.1).or iface.defaultV6
    }
  else
    none

end Engine.Netstack
