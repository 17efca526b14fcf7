import SoildTunnel.App.TunDns
import SoildTunnel.App.Upstream
import SoildTunnel.Engine.Socks.Target

-- The datagrams between the bridge and the SOCKS port.
namespace App.TunBridge

open Kotlin
open Engine (Ipv4Addr Ipv6Addr IpAddr)
open Engine.Socks (ofBytes4 ofBytes16)

-- `InetAddress`. An IPv4 address that is written as an IPv6 address is an IPv4 address there.
inductive InetAddress
  | inet4 (ip : Ipv4Addr)
  | inet6 (ip : Ipv6Addr) (notMapped : ip.toIpv4Mapped = none)
deriving DecidableEq

namespace InetAddress

def ofIpv6 (ip : Ipv6Addr) : InetAddress :=
  match h : ip.toIpv4Mapped with
  | some v4 => .inet4 v4
  | none => .inet6 ip h

-- It throws for any other number of bytes.
def getByAddress (b : Bytes) : Option InetAddress :=
  ((ofBytes4 b).map .inet4).or ((ofBytes16 b).map ofIpv6)

def ip : InetAddress → IpAddr
  | inet4 ip => .v4 ip
  | inet6 ip _ => .v6 ip

end InetAddress

structure SocksAddress where
  address : InetAddress
  port : Nat
deriving DecidableEq

-- A `DatagramPacket` as it is received: its bytes are the first ones of a buffer.
structure Packet where
  data : Bytes
  len : Nat
  len_le : len ≤ data.length

def copyOfRange (data : Bytes) (lo hi : Nat) : Bytes :=
  (data.drop lo).take (hi - lo)

-- `getByName` is what a name resolves to, if it does.
def parseSocksUdp (getByName : Bytes → Option InetAddress) (p : Packet) : Option (SocksAddress × Bytes) :=
  if p.len < 4 then none
  else do
    let atyp ← p.data[3]?
    let (address, port, offset) ←
      if atyp = 1 then
        if p.len < 10 then none
        else do
          let address ← InetAddress.getByAddress (copyOfRange p.data 4 8)
          let port ← getShort p.data 8
          some (address, port, 10)
      else if atyp = 4 then
        if p.len < 22 then none
        else do
          let address ← InetAddress.getByAddress (copyOfRange p.data 4 20)
          let port ← getShort p.data 20
          some (address, port, 22)
      else if atyp = 3 then
        if p.len < 5 then none
        else do
          let domainLength := (← p.data[4]?).toNat
          if p.len < 5 + domainLength + 2 then none
          else do
            let address ← getByName (copyOfRange p.data 5 (5 + domainLength))
            let port ← getShort p.data (5 + domainLength)
            some (address, port, 5 + domainLength + 2)
      else none
    if p.len < offset then none
    else some (⟨address, port⟩, copyOfRange p.data offset p.len)

def toByteArray (t : Text) : Bytes :=
  (envText t).utf8

def socksUdpHeader (domain : Option Text) (address : Bytes) (port : Nat) : Bytes :=
  let portBytes := [(port >>> 8).toUInt8, (port &&& 0xff).toUInt8]
  match domain with
  | some domain =>
    let db := toByteArray domain
    [0, 0, 0, 3, db.length.toUInt8] ++ db ++ portBytes
  | none => [0, 0, 0, if address.length = 4 then 1 else 4] ++ address ++ portBytes

end App.TunBridge
