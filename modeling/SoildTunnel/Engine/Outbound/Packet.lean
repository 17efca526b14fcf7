import SoildTunnel.Engine.Net
import SoildTunnel.Lib.Octets
import SoildTunnel.Rust.Text

-- The frames in which TUIC carries UDP.
namespace Engine.Outbound

open Rust

def TUIC_VERSION : UInt8 := 0x05
def CMD_PACKET : UInt8 := 0x02

def ADDR_NONE : UInt8 := 0xff
def ADDR_NAME : UInt8 := 0x00
def ADDR_V4 : UInt8 := 0x01
def ADDR_V6 : UInt8 := 0x02

def PACKET_HEADER : Nat := 10
def ASSOC_ID : UInt16 := 1
def MAX_DGRAM_PAYLOAD : Nat := 65535

-- A name is left to the server to look up.
inductive UdpTarget
  | ip (addr : SocketAddr)
  | name (name : Text) (port : UInt16)
deriving DecidableEq

inductive PeerAddr
  | none
  | ip (addr : SocketAddr)
  | name (name : Text) (port : UInt16)
deriving DecidableEq

def encodeTarget : UdpTarget → Except String Bytes
  | .ip ⟨.v4 ip, port⟩ => .ok (ADDR_V4 :: ip.toList ++ Octets.toBytes16 port)
  | .ip ⟨.v6 ip, port⟩ => .ok (ADDR_V6 :: ip.toList ++ Octets.toBytes16 port)
  | .name name port =>
    let raw := Text.utf8 name
    if raw.length > 255 then .error "target name is too long for tuic"
    else .ok (ADDR_NAME :: raw.length.toUInt8 :: raw ++ Octets.toBytes16 port)

def hex (b : UInt8) : String :=
  "0x" ++ String.ofList [Nat.digitChar (b.toNat / 16), Nat.digitChar (b.toNat % 16)]

def u16 (hi lo : UInt8) : UInt16 :=
  .ofNat (Octets.bigEndian [hi, lo])

def decodeAddress : Bytes → Except String (PeerAddr × Nat)
  | [] => .error "tuic address truncated"
  | kind :: buf =>
    if kind = ADDR_NONE then
      .ok (.none, 1)
    else if kind = ADDR_V4 then
      match buf with
      | a :: b :: c :: d :: hi :: lo :: _ => .ok (.ip ⟨.v4 (.new a b c d), u16 hi lo⟩, 7)
      | _ => .error "tuic ipv4 address truncated"
    else if kind = ADDR_V6 then
      if h : 18 ≤ buf.length then
        let ip : Ipv6Addr := .ofFn fun i => buf.get (i.castLE (by omega))
        .ok (.ip ⟨.v6 ip, u16 buf[16] buf[17]⟩, 19)
      else
        .error "tuic ipv6 address truncated"
    else if kind = ADDR_NAME then
      match buf with
      | [] => .error "tuic name address truncated"
      | len :: buf =>
        match buf.drop len.toNat with
        | hi :: lo :: _ =>
          .ok (.name (Text.fromUtf8Lossy (buf.take len.toNat)) (u16 hi lo), 4 + len.toNat)
        | _ => .error "tuic name address truncated"
    else
      .error s!"unknown tuic address type {hex kind}"

structure PacketHead where
  packet : UInt16
  total : UInt8
  index : UInt8
  size : Nat
  address : PeerAddr
  consumed : Nat
deriving DecidableEq

def parsePacketHead : Bytes → Except String PacketHead
  | version :: cmd :: _ :: _ :: p₁ :: p₂ :: total :: index :: s₁ :: s₂ :: rest =>
    if version ≠ TUIC_VERSION then
      .error s!"tuic version {version.toNat} is not supported"
    else if cmd ≠ CMD_PACKET then
      .error s!"unexpected tuic command {hex cmd}"
    else do
      let (address, used) ← decodeAddress rest
      return ⟨u16 p₁ p₂, total, index, (u16 s₁ s₂).toNat, address, PACKET_HEADER + used⟩
  | _ => .error "tuic packet header truncated"

def buildPacket (packet : UInt16) (index total : UInt8) (address payload : Bytes) : Bytes :=
  [TUIC_VERSION, CMD_PACKET] ++ Octets.toBytes16 ASSOC_ID ++ Octets.toBytes16 packet ++ [total, index] ++
    Octets.toBytes16 payload.length.toUInt16 ++ address ++ payload

def fragments (packet : UInt16) (total : Nat) (address payload : Bytes) (maxFirst maxRest : Nat) :
    (index left offset : Nat) → List Bytes
  | _, 0, _ => []
  | index, left + 1, offset =>
    let want := min (if index = 0 then maxFirst else maxRest) (payload.length - offset)
    let frameAddress := if index = 0 then address else [ADDR_NONE]
    buildPacket packet index.toUInt8 total.toUInt8 frameAddress ((payload.drop offset).take want) ::
      fragments packet total address payload maxFirst maxRest (index + 1) left (offset + want)

-- The frames that `send_udp` gives to the connection, none of them when it gives up. `writable` is
-- what `dgram_max_writable_len` returns.
def sendUdp (writable : Option Nat) (packet : UInt16) (target : UdpTarget) (payload : Bytes) : List Bytes :=
  match encodeTarget target with
  | .error _ => []
  | .ok address =>
    let budget := min (writable.getD MAX_DGRAM_PAYLOAD) MAX_DGRAM_PAYLOAD
    if budget ≤ PACKET_HEADER + address.length then []
    else
      let maxFirst := budget - PACKET_HEADER - address.length
      if payload.length ≤ maxFirst then [buildPacket packet 0 1 address payload]
      else
        let maxRest := budget - PACKET_HEADER - 1
        if maxRest = 0 then []
        else
          let total := 1 + (payload.length - maxFirst + maxRest - 1) / maxRest
          if total > 255 then []
          else fragments packet total address payload maxFirst maxRest 0 total 0

end Engine.Outbound
