import SoildTunnel.App.DnsMap
import SoildTunnel.App.TunBridge

-- The names that the bridge has seen in DNS answers, and what it asks the SOCKS port for.
namespace App.TunBridge

open Kotlin

-- An address by its bytes. As a text, an IPv4 address looks the same when it is written as an IPv6
-- address.
def hostAddress (address : Bytes) : Bytes :=
  if address.take 12 = List.replicate 10 0 ++ [255, 255] then address.drop 12 else address

-- The cache is shared by all applications.
abbrev DnsMap := App.DnsMap.Cache Bytes

section Sniff

variable (pf : Platform) (data : Bytes)

-- Past the end of the data there is an exception.
def getShort (pos : Nat) : Option Nat := do
  let hi ← data[pos]?
  let lo ← data[pos + 1]?
  return hi.toNat * 256 + lo.toNat

-- Where a name ends. In a question a pointer ends it too.
def skipLabels (pointers : Bool) (pos : Nat) : Nat :=
  match h : data[pos]? with
  | none => pos
  | some l =>
    if l = 0 then pos + 1
    else if pointers && 0xc0 ≤ l then pos + 2
    else skipLabels pointers (pos + l.toNat + 1)
termination_by data.length - pos
decreasing_by
  have := (List.getElem?_eq_some_iff.mp h).1
  omega

def skipQuestions : Nat → Nat → Nat
  | 0, pos => pos
  | n + 1, pos => skipQuestions n (skipLabels data true pos + 4)

def appendLabels (domain : Text) (pos : Nat) : Option Text :=
  match h : data[pos]? with
  | none => some domain
  | some l =>
    if l = 0 then some domain
    else if data.length < pos + 1 + l.toNat then none
    else
      let label := pf.decode ((data.drop (pos + 1)).take l.toNat)
      appendLabels ((if domain = [] then domain else domain ++ [DnsMap.dot]) ++ label) (pos + l.toNat + 1)
termination_by data.length - pos
decreasing_by
  have := (List.getElem?_eq_some_iff.mp h).1
  omega

def extractDomainName : Option Text :=
  if data.length < 12 then none else (appendLabels pf data [] 12).map pf.lowercase

-- The addresses in the answers. An exception ends the loop.
def addresses : Nat → Nat → List Bytes
  | 0, _ => []
  | n + 1, pos =>
    if data.length < pos + 12 then addresses n pos
    else
      let pos := if 0xc0 ≤ data.getD pos 0 then pos + 2 else skipLabels data false pos
      match getShort data pos, getShort data (pos + 8) with
      | some type, some rdLen =>
        let pos := pos + 10
        let ip := hostAddress ((data.drop pos).take rdLen)
        if (type = 1 ∧ rdLen = 4 ∨ type = 28 ∧ rdLen = 16) ∧ pos + rdLen ≤ data.length then
          ip :: addresses n (pos + rdLen)
        else addresses n (pos + rdLen)
      | _, _ => []

-- The addresses that a response puts into the cache one by one, all with the name of its question.
def sniffDnsResponse : List (Bytes × Text) :=
  if data.length < 12 then []
  else
    match getShort data 2, getShort data 4, getShort data 6, extractDomainName pf data with
    | some flags, some qCount, some aCount, some domain =>
      if flags < 0x8000 ∨ qCount = 0 ∨ aCount = 0 then []
      else (addresses data aCount (skipQuestions data qCount 12)).map (·, domain)
    | _, _, _, _ => []

end Sniff

inductive RoutingMode
  | tunnel
  | direct
  | block
deriving DecidableEq

-- What the rules say of an address and port with a name from the cache, a server name or a host.
structure RoutingEngine where
  resolve : Bytes → Nat → Option Text → Option Text → Option Text → RoutingMode
  hasDomainRules : Bool

-- `RoutingEngine(emptyList())`, which is what the app uses.
def RoutingEngine.empty : RoutingEngine where
  resolve _ _ _ _ _ := .tunnel
  hasDomainRules := false

structure Settings where
  platform : Platform
  routingEngine : RoutingEngine
  sniffDomain : Bytes → Nat → Option Text
  torMode : Bool

inductive Target
  | domain (name : Text)
  | address (ip : Bytes)
deriving DecidableEq

structure Segment where
  seq : Nat
  payload : Option Bytes
  flags : UInt8

structure Start where
  uid : Nat
  serverIp : Bytes
  serverPort : Nat
  now : Nat

namespace Settings

variable (b : Settings)

-- What is not for the tunnel does not get to the SOCKS port.
def request (mode : RoutingMode) (start : Start) (domain : Option Text) : Option Target :=
  match mode with
  | .tunnel => some (domain.elim (.address start.serverIp) .domain)
  | .direct => none
  | .block => none

-- The first packet in the queue, for the segments that have come until then.
def firstPacket (initialSeq mySeq : Nat) (segments : List Segment) : Option Bytes :=
  let session := segments.foldl (fun s g => (s.handleFromTun g.seq g.payload g.flags).1)
    (TcpSession.created initialSeq mySeq)
  session.queue.poll.map Prod.fst

-- `TcpSession.run` up to its request.
def tcpRun (m : DnsMap) (start : Start) (first : Option Bytes) : DnsMap × Option Target :=
  let ip := hostAddress start.serverIp
  let (m, cachedDomain) := DnsMap.get m ip start.now
  let mode := b.routingEngine.resolve ip start.serverPort cachedDomain none none
  let sniffs := mode = .tunnel ∧ cachedDomain = none ∧ (start.serverPort = 80 ∨ start.serverPort = 443)
  match if sniffs then first.bind (b.sniffDomain · start.serverPort) else none with
  | some name =>
    let sni := if start.serverPort = 443 then some name else none
    let host := if start.serverPort = 80 then some name else none
    let mode := b.routingEngine.resolve ip start.serverPort none sni host
    (DnsMap.putName b.platform m ip name start.now, request mode start (some name))
  | none => (m, request mode start cachedDomain)

-- `UdpSession.run` up to the header of its datagrams. Tor has no UDP.
def udpRun (m : DnsMap) (start : Start) : DnsMap × Option Target :=
  if b.torMode then (m, none)
  else
    let ip := hostAddress start.serverIp
    let (m, targetDomain) := DnsMap.get m ip start.now
    let mode := b.routingEngine.resolve ip start.serverPort targetDomain none none
    if start.serverPort = 443 ∧ targetDomain = none ∧ b.routingEngine.hasDomainRules then (m, none)
    else (m, request mode start targetDomain)

end Settings

-- What the threads do with the cache: a response on a flow of an application has its next address put
-- in, or a session starts.
inductive DnsEvent
  | answer (uid : Nat) (data : Bytes) (index : Nat) (now : Nat)
  | tcp (start : Start) (initialSeq mySeq : Nat) (segments : List Segment)
  | udp (start : Start)

structure Request where
  uid : Nat
  target : Option Target
deriving DecidableEq

namespace DnsEvent

variable (b : Settings)

def now : DnsEvent → Nat
  | .answer _ _ _ now => now
  | .tcp start _ _ _ => start.now
  | .udp start => start.now

def step (m : DnsMap) : DnsEvent → DnsMap × Option Request
  | .answer _ data index now =>
    match (sniffDnsResponse b.platform data)[index]? with
    | some (ip, domain) => (DnsMap.putName b.platform m ip domain now, none)
    | none => (m, none)
  | .tcp start initialSeq mySeq segments =>
    let (m, target) := b.tcpRun m start (Settings.firstPacket initialSeq mySeq segments)
    (m, some ⟨start.uid, target⟩)
  | .udp start =>
    let (m, target) := b.udpRun m start
    (m, some ⟨start.uid, target⟩)

def requests (m : DnsMap) : List DnsEvent → List Request
  | [] => []
  | e :: run =>
    let (m, request) := e.step b m
    request.toList ++ requests m run

end DnsEvent

end App.TunBridge
