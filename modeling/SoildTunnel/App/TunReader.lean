import SoildTunnel.App.SocksUdp
import SoildTunnel.App.TunPacket

-- The thread that reads packets from the TUN interface and gives them to their sessions.
namespace App.TunBridge

open Engine (Ipv6Addr)
open Engine.Socks (ofBytes16)
open Kotlin

def getInt (b : Bytes) (o : Nat) : Option UInt32 := do
  let hi ← getShort b o
  let lo ← getShort b (o + 2)
  return (hi * 0x10000 + lo).toUInt32

def getLong (b : Bytes) (o : Nat) : Option Nat := do
  let hi ← getShort b o
  let lo ← getShort b (o + 2)
  return hi * 0x10000 + lo

inductive FlowKey
  | v4 (proto : Nat) (srcIp : UInt32) (srcPort : Nat) (dstIp : UInt32) (dstPort : Nat)
  | v6 (proto : Nat) (srcIp : Ipv6Addr) (srcPort : Nat) (dstIp : Ipv6Addr) (dstPort : Nat)
deriving DecidableEq

namespace FlowKey

def proto : FlowKey → Nat
  | v4 proto .. | v6 proto .. => proto

def srcPort : FlowKey → Nat
  | v4 _ _ srcPort .. | v6 _ _ srcPort .. => srcPort

def dstPort : FlowKey → Nat
  | v4 _ _ _ _ dstPort | v6 _ _ _ _ dstPort => dstPort

def tcpAnswer (mtu : Nat) (seq ack : Nat) (flags : UInt8) : FlowKey → Bytes
  | v4 _ srcIp srcPort dstIp dstPort =>
    buildTcp4 mtu dstIp srcIp dstPort.toUInt32 srcPort.toUInt32 none seq.toUInt64 ack.toUInt64 flags.toUInt32
  | v6 _ srcIp srcPort dstIp dstPort =>
    buildTcp6 mtu dstIp srcIp dstPort.toUInt32 srcPort.toUInt32 none seq.toUInt64 ack.toUInt64 flags.toUInt32

def dnsReply (payload : Bytes) : FlowKey → Bytes
  | v4 _ srcIp srcPort dstIp _ => buildUdp4 dstIp srcIp 53 srcPort.toUInt32 payload
  | v6 _ srcIp srcPort dstIp _ => buildUdp6 dstIp srcIp 53 srcPort.toUInt32 payload

end FlowKey

structure TcpEntry where
  tcp : TcpSession
  uid : Int
  createdAt : Nat

structure UdpEntry where
  payloadQueue : Bounded Bytes 2048
  isClosed : Bool
  uid : Int

inductive FlowEvent
  | created (key : FlowKey)
  | queued (key : FlowKey)
deriving DecidableEq

structure Reader where
  tcpSessions : FlowKey → Option TcpEntry := fun _ => none
  udpSessions : FlowKey → Option UdpEntry := fun _ => none
  dns : DnsMap := .empty
  -- What was passed to `enqueueTun`.
  written : List Bytes := []
  events : List FlowEvent := []

-- What the thread asks for when a packet arrives: the owner of a flow, the blocked applications, the time and a
-- random number.
structure Surroundings where
  settings : Settings
  mtu : Nat
  ownerUid : FlowKey → Int
  blockedUids : Int → Bool
  now : Nat
  mySeq : Nat

def Surroundings.isUidBlocked (env : Surroundings) (uid : Int) : Bool :=
  uid ≠ -1 && env.blockedUids uid

def isPureSyn (flags : UInt8) : Bool :=
  flags &&& 0x02 ≠ 0 && flags &&& 0x10 = 0

def TcpEntry.isStaleUnconnected (e : TcpEntry) (now : Nat) : Bool :=
  !e.tcp.connected && now - e.createdAt > 1000

def buildDnsNXResponse (requestData : Bytes) : Option Bytes :=
  if requestData.length < 12 then none
  else
    let questionEnd := min requestData.length (skipLabels requestData true 12 + 4)
    let resp := requestData.take questionEnd
    let resp := resp.set 2 (resp.getD 2 0 ||| 0x80)
    let resp := resp.set 3 ((resp.getD 3 0 &&& 0x70) ||| 0x80 ||| 0x03)
    some (arraycopy (List.replicate 6 0) resp 6)

namespace Reader

variable (env : Surroundings) (s : Reader)

def newTcp (key : FlowKey) (seq : Nat) (flags : UInt8) : Reader :=
  if isPureSyn flags then
    let uid := env.ownerUid key
    if env.isUidBlocked uid then
      { s with written := s.written ++ [key.tcpAnswer env.mtu 0 (seqMask (seq + 1)) 0x14] }
    else
      { s with
        tcpSessions := Function.update s.tcpSessions key (some ⟨.created seq env.mySeq, uid, env.now⟩)
        events := s.events ++ [.created key] }
  else
    s

def removeTcp (key : FlowKey) : Reader :=
  { s with tcpSessions := Function.update s.tcpSessions key none }

def handleTcp (key : FlowKey) (e : TcpEntry) (seq : Nat) (payload : Option Bytes) (flags : UInt8) : Reader :=
  let (tcp, answer) := e.tcp.handleFromTun seq payload flags
  { s with
    -- A session that is closed by the segment leaves the table.
    tcpSessions := Function.update s.tcpSessions key
      (if tcp.isClosed ∧ ¬ e.tcp.isClosed then none else some { e with tcp })
    written := s.written ++ answer.toList.map fun g => key.tcpAnswer env.mtu g.seq g.ack g.flags
    events := s.events ++ if tcp.queue.items = e.tcp.queue.items then [] else [.queued key] }

def processTcp (packet : Bytes) (o : Nat) (key : FlowKey) : Option Reader := do
  let flags ← packet[o + 13]?
  let seq ← getLong packet (o + 4)
  match s.tcpSessions key with
  | some session =>
    if isPureSyn flags && !session.tcp.connected then
      if session.isStaleUnconnected env.now then some ((s.removeTcp key).newTcp env key seq flags)
      else some s
    else if env.isUidBlocked session.uid then some (s.removeTcp key)
    else
      let offsetByte ← packet[o + 12]?
      let tcpDataOffset := o + ((offsetByte &&& 0xf0) >>> 2).toNat
      let payload := if tcpDataOffset < packet.length then some (packet.drop tcpDataOffset) else none
      some (s.handleTcp env key session seq payload flags)
  | none => some (s.newTcp env key seq flags)

def sniffDns (payload : Bytes) : Reader :=
  { s with
    dns := (sniffDnsResponse env.settings.platform payload).foldl
      (fun dns (ip, domain) => DnsMap.putName env.settings.platform dns ip domain env.now) s.dns }

def guardDns (payload dstIp : Bytes) : Option Bytes := do
  let domain ← extractDomainName env.settings.platform payload
  if env.settings.routingEngine.resolve (hostAddress dstIp) 53 (some domain) none none = .block then
    buildDnsNXResponse payload
  else
    none

def queueUdp (key : FlowKey) (e : UdpEntry) (payload : Bytes) : Reader :=
  if e.isClosed then s
  else
    match e.payloadQueue.offer payload with
    | some payloadQueue =>
      { s with
        udpSessions := Function.update s.udpSessions key (some { e with payloadQueue })
        events := s.events ++ [.queued key] }
    | none => s

def forwardUdp (key : FlowKey) (payload : Bytes) : Reader :=
  match s.udpSessions key with
  | some session =>
    if env.isUidBlocked session.uid then { s with udpSessions := Function.update s.udpSessions key none }
    else s.queueUdp key session payload
  | none =>
    let uid := env.ownerUid key
    if env.isUidBlocked uid then s
    else
      let session : UdpEntry := ⟨.empty, false, uid⟩
      let s : Reader := { s with
        udpSessions := Function.update s.udpSessions key (some session)
        events := s.events ++ [.created key] }
      s.queueUdp key session payload

def processUdp (packet : Bytes) (o : Nat) (key : FlowKey) (dstIp : Bytes) : Reader :=
  let payload := packet.drop (o + 8)
  match if key.dstPort = 53 then guardDns env payload dstIp else none with
  | some nxResponse => { s with written := s.written ++ [key.dnsReply nxResponse] }
  | none =>
    let s := if key.srcPort = 53 then s.sniffDns env payload else s
    s.forwardUdp env key payload

-- `none` when the packet is left alone.
def processIpv4 (packet : Bytes) : Option Reader :=
  if packet.length < 20 then none
  else do
    let proto := (← packet[9]?).toNat
    if proto ≠ 6 ∧ proto ≠ 17 then none
    else
      let hLen := (← packet[0]?).toNat % 16 * 4
      if packet.length < hLen then none
      else
        let srcIp ← getInt packet 12
        let dstIp ← getInt packet 16
        if packet.length < hLen + (if proto = 6 then 20 else 8) then none
        else
          let srcPort ← getShort packet hLen
          let dstPort ← getShort packet (hLen + 2)
          let key := FlowKey.v4 proto srcIp srcPort dstIp dstPort
          if proto = 6 then s.processTcp env packet hLen key
          else some (s.processUdp env packet hLen key (copyOfRange packet 16 20))

def ipv6Headers (packet : Bytes) (nextHeader : Nat) (offset : Nat) : Option (Nat × Nat) :=
  if nextHeader = 6 ∨ nextHeader = 17 then some (nextHeader, offset)
  else if nextHeader = 0 ∨ nextHeader = 43 ∨ nextHeader = 60 ∨ nextHeader = 135 then
    if packet.length < offset + 2 then none
    else
      match packet[offset]?, packet[offset + 1]? with
      | some next, some len => ipv6Headers packet next.toNat (offset + (len.toNat + 1) * 8)
      | _, _ => none
  else
    none
termination_by packet.length - offset
decreasing_by omega

def ipv6Transport (packet : Bytes) : Option (Nat × Nat) :=
  if packet.length < 40 then none
  else (packet[6]?).bind fun nextHeader => ipv6Headers packet nextHeader.toNat 40

def processIpv6 (packet : Bytes) : Option Reader := do
  let (nextHeader, offset) ← ipv6Transport packet
  let srcIp ← ofBytes16 (copyOfRange packet 8 24)
  let dstIp ← ofBytes16 (copyOfRange packet 24 40)
  if packet.length < offset + 4 then none
  else
    let srcPort ← getShort packet offset
    let dstPort ← getShort packet (offset + 2)
    let key := FlowKey.v6 nextHeader srcIp srcPort dstIp dstPort
    if nextHeader = 6 then
      if packet.length < offset + 20 then none
      else s.processTcp env packet offset key
    else if nextHeader = 17 then
      if packet.length < offset + 8 then none
      else some (s.processUdp env packet offset key (copyOfRange packet 24 40))
    else
      none

def processPacket (packet : Bytes) : Reader :=
  match packet[0]? with
  | none => s
  | some b =>
    if b.toNat / 16 = 4 then (s.processIpv4 env packet).getD s
    else if b.toNat / 16 = 6 then (s.processIpv6 env packet).getD s
    else s

end Reader

end App.TunBridge
