import SoildTunnel.Engine.Socks.Target

-- The headers of datagrams on their way to the upstream proxy and back.
namespace Engine.Upstream

open Rust
open Socks (ofBytes4 ofBytes16)

def ATYP_V4 : UInt8 := 0x01
def ATYP_NAME : UInt8 := 0x03
def ATYP_V6 : UInt8 := 0x04

def encodeAddress (target : SocketAddr) : Bytes :=
  let addr := match target.ip with
    | .v4 ip => ATYP_V4 :: ip.toList
    | .v6 ip => ATYP_V6 :: ip.toList
  addr ++ Octets.toBytes16 target.port

def encodeUdpHeader (target : SocketAddr) : Bytes :=
  [0x00, 0x00, 0x00] ++ encodeAddress target

def portAt (buf : Bytes) (pos : Nat) : UInt16 :=
  .ofNat (Octets.bigEndian ((buf.drop pos).take 2))

-- The source, and where the payload begins. A name must be an address.
def decodeUdpHeader (buf : Bytes) : Option (SocketAddr × Nat) :=
  if buf.length < 4 ∨ buf.getD 2 0 ≠ 0x00 then none
  else if buf.getD 3 0 = ATYP_V4 then
    if buf.length < 10 then none
    else (ofBytes4 ((buf.drop 4).take 4)).map fun ip => (⟨.v4 ip, portAt buf 8⟩, 10)
  else if buf.getD 3 0 = ATYP_V6 then
    if buf.length < 22 then none
    else (ofBytes16 ((buf.drop 4).take 16)).map fun ip => (⟨.v6 ip, portAt buf 20⟩, 22)
  else if buf.getD 3 0 = ATYP_NAME then do
    let length ← buf[4]?
    let stop := 5 + length.toNat
    if buf.length < stop + 2 then none
    else
      let name ← Text.fromUtf8 ((buf.drop 5).take length.toNat)
      let ip ← parseIp name
      return (⟨ip, portAt buf stop⟩, stop + 2)
  else none

end Engine.Upstream
