import SoildTunnel.App.TunBridge
import SoildTunnel.Engine.Net

-- The packets that the bridge writes to the TUN interface. An `Int` and a `Long` are given by their bits.
namespace App.TunBridge

open Engine (Ipv6Addr)

def setInt (b : Bytes) (o : Nat) (v : UInt32) : Bytes :=
  (((b.set o (v >>> 24).toUInt8).set (o + 1) (v >>> 16).toUInt8).set (o + 2) (v >>> 8).toUInt8).set (o + 3)
    (v &&& 0xff).toUInt8

def setShort (b : Bytes) (o : Nat) (v : UInt32) : Bytes :=
  (b.set o (v >>> 8).toUInt8).set (o + 1) (v &&& 0xff).toUInt8

def setLong (b : Bytes) (o : Nat) (v : UInt64) : Bytes :=
  (((b.set o (v >>> 24).toUInt8).set (o + 1) (v >>> 16).toUInt8).set (o + 2) (v >>> 8).toUInt8).set (o + 3)
    (v &&& 0xff).toUInt8

-- A number that is not negative, in the two bytes from `o` on.
def setLength (b : Bytes) (o : Nat) (n : Nat) : Bytes :=
  (b.set o (n >>> 8).toUInt8).set (o + 1) (n &&& 0xff).toUInt8

-- `System.arraycopy(src, 0, b, o, src.size)`
def arraycopy (src b : Bytes) (o : Nat) : Bytes :=
  b.take o ++ src ++ b.drop (o + src.length)

section Checksum

-- The loop over the pairs of bytes, with the odd byte at the end. The sums stay far below the range of a `Long`.
def sumBytes : Bytes → Nat → Nat
  | hi :: lo :: b, sum => sumBytes b (sum + (hi.toNat <<< 8 ||| lo.toNat))
  | [hi], sum => sum + hi.toNat <<< 8
  | [], sum => sum

def foldCarry (s : Nat) : Nat :=
  if 0 < s >>> 16 then foldCarry ((s &&& 0xffff) + s >>> 16) else s
termination_by s
decreasing_by
  rename_i h
  rw [Nat.shiftRight_eq_div_pow] at h ⊢
  have := Nat.and_two_pow_sub_one_eq_mod s 16
  simp only [Nat.reducePow, Nat.reduceSub] at this h ⊢
  omega

def foldChecksum (sum : Nat) : Nat :=
  (~~~ (foldCarry sum).toUInt16).toNat

def calculateChecksum (b : Bytes) : Nat :=
  foldChecksum (sumBytes (b.take 20) 0)

def calculateTransportChecksum4 (srcIp dstIp : UInt32) (segment : Bytes) (protocol : Nat) : Nat :=
  let sum := ((srcIp >>> 16) &&& 0xffff).toNat
  let sum := sum + (srcIp &&& 0xffff).toNat
  let sum := sum + ((dstIp >>> 16) &&& 0xffff).toNat
  let sum := sum + (dstIp &&& 0xffff).toNat
  let sum := sum + protocol
  let sum := sum + segment.length
  foldChecksum (sumBytes segment sum)

def calculateTransportChecksum6 (srcIp dstIp : Ipv6Addr) (segment : Bytes) (protocol : Nat) : Nat :=
  let sum := sumBytes srcIp.toList 0
  let sum := sumBytes dstIp.toList sum
  let sum := sum + segment.length
  let sum := sum + protocol
  foldChecksum (sumBytes segment sum)

-- A checksum of zero is sent as its other form.
def nonZero (ck : Nat) : Nat :=
  if ck = 0 then 0xffff else ck

end Checksum

def isSynAck (flags : UInt32) : Bool := flags = 0x12

def optLen (flags : UInt32) : Nat :=
  if isSynAck flags then 4 else 0

-- The MSS option at `o` of a SYN-ACK.
def setMss (b : Bytes) (o : Nat) (flags : UInt32) (mss : Nat) : Bytes :=
  if isSynAck flags then setLength ((b.set o 2).set (o + 1) 4) (o + 2) mss else b

section Build

variable (mtu : Nat)

def buildTcp4 (srcIp dstIp srcPort dstPort : UInt32) (data : Option Bytes) (seq ack : UInt64) (flags : UInt32) :
    Bytes :=
  let total := 40 + optLen flags + (data.getD []).length
  let p := List.replicate total 0
  let p := p.set 0 0x45
  let p := setLength p 2 total
  let p := p.set 8 64
  let p := p.set 9 6
  let p := setInt p 12 srcIp
  let p := setInt p 16 dstIp
  let ipCk := calculateChecksum p
  let p := setLength p 10 ipCk
  let p := setShort p 20 srcPort
  let p := setShort p 22 dstPort
  let p := setLong p 24 seq
  let p := setLong p 28 ack
  let p := p.set 32 ((5 + optLen flags / 4) <<< 4).toUInt8
  let p := p.set 33 flags.toUInt8
  let p := p.set 34 0xff
  let p := p.set 35 0xff
  let p := setMss p 40 flags (max (mtu - 40) 536)
  let p := arraycopy (data.getD []) p (40 + optLen flags)
  let tcpCk := nonZero (calculateTransportChecksum4 srcIp dstIp (p.drop 20) 6)
  setLength p 36 tcpCk

def buildTcp6 (srcIp dstIp : Ipv6Addr) (srcPort dstPort : UInt32) (data : Option Bytes) (seq ack : UInt64)
    (flags : UInt32) : Bytes :=
  let tcpLen := 20 + optLen flags + (data.getD []).length
  let total := 40 + tcpLen
  let p := List.replicate total 0
  let p := p.set 0 0x60
  let p := setLength p 4 tcpLen
  let p := p.set 6 6
  let p := p.set 7 64
  let p := arraycopy srcIp.toList p 8
  let p := arraycopy dstIp.toList p 24
  let p := setShort p 40 srcPort
  let p := setShort p 42 dstPort
  let p := setLong p 44 seq
  let p := setLong p 48 ack
  let p := p.set 52 ((5 + optLen flags / 4) <<< 4).toUInt8
  let p := p.set 53 flags.toUInt8
  let p := p.set 54 0xff
  let p := p.set 55 0xff
  let p := setMss p 60 flags (max (mtu - 60) 536)
  let p := arraycopy (data.getD []) p (60 + optLen flags)
  let tcpCk := nonZero (calculateTransportChecksum6 srcIp dstIp (p.drop 40) 6)
  setLength p 56 tcpCk

def buildUdp4 (srcIp dstIp srcPort dstPort : UInt32) (data : Bytes) : Bytes :=
  let udpLen := 8 + data.length
  let total := 20 + udpLen
  let p := List.replicate total 0
  let p := p.set 0 0x45
  let p := setLength p 2 total
  let p := p.set 8 64
  let p := p.set 9 17
  let p := setInt p 12 srcIp
  let p := setInt p 16 dstIp
  let ipCk := calculateChecksum p
  let p := setLength p 10 ipCk
  let p := setShort p 20 srcPort
  let p := setShort p 22 dstPort
  let p := setLength p 24 udpLen
  let p := arraycopy data p 28
  let udpCk := nonZero (calculateTransportChecksum4 srcIp dstIp (p.drop 20) 17)
  setLength p 26 udpCk

def buildUdp6 (srcIp dstIp : Ipv6Addr) (srcPort dstPort : UInt32) (data : Bytes) : Bytes :=
  let udpLen := 8 + data.length
  let total := 40 + udpLen
  let p := List.replicate total 0
  let p := p.set 0 0x60
  let p := setLength p 4 udpLen
  let p := p.set 6 17
  let p := p.set 7 64
  let p := arraycopy srcIp.toList p 8
  let p := arraycopy dstIp.toList p 24
  let p := setShort p 40 srcPort
  let p := setShort p 42 dstPort
  let p := setLength p 44 udpLen
  let p := arraycopy data p 48
  let udpCk := nonZero (calculateTransportChecksum6 srcIp dstIp (p.drop 40) 17)
  setLength p 46 udpCk

end Build

end App.TunBridge
