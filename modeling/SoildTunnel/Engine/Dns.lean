import SoildTunnel.Engine.Addr
import SoildTunnel.Lib.Distinct

-- How the engine resolves names inside the tunnel.
namespace Engine.Dns

open Rust

def QTYPE_A : UInt16 := 1

def buildDnsQuery (id : UInt16) (name : Text) (qtype : UInt16) : Bytes :=
  Octets.toBytes16 id ++ [0x01, 0x00] ++ [0x00, 0x01] ++ [0x00, 0x00, 0x00, 0x00, 0x00, 0x00] ++
    (name.splitOn '.').flatMap (fun label : Text => label.utf8.length.toUInt8 :: label.utf8) ++ [0x00] ++
    Octets.toBytes16 qtype ++ [0x00, 0x01]

section Message

variable (resp : Bytes)

def u16At (pos : Nat) : Nat :=
  Octets.bigEndian ((resp.drop pos).take 2)

def lowerAscii (b : UInt8) : UInt8 :=
  if 65 ≤ b ∧ b ≤ 90 then b + 32 else b

def eqIgnoreAsciiCase (a b : Bytes) : Bool :=
  a.map lowerAscii = b.map lowerAscii

-- Where the labels of a name end, if they are what is there. Empty labels are passed over.
def matchLabels : List Text → Nat → Option Nat
  | [], pos => some pos
  | label :: labels, pos =>
    if label = [] then matchLabels labels pos
    else
      match resp[pos]? with
      | none => none
      | some len =>
        let stop := pos + 1 + len.toNat
        if len.toNat = label.utf8.length ∧ stop ≤ resp.length ∧
            eqIgnoreAsciiCase ((resp.drop (pos + 1)).take len.toNat) label.utf8 then matchLabels labels stop
        else none

def dnsResponseMatches (expectedId : UInt16) (expectedName : Text) (expectedQtype : UInt16) : Bool :=
  if resp.length < 12 ∨ u16At resp 0 ≠ expectedId.toNat ∨ resp.getD 2 0 &&& 0x80 = 0 ∨ u16At resp 4 ≠ 1 then false
  else
    match matchLabels resp (expectedName.splitOn '.') 12 with
    | none => false
    | some pos => resp[pos]? = some 0 && pos + 5 ≤ resp.length && u16At resp (pos + 1) = expectedQtype.toNat

-- A name ends at an empty label or at a pointer.
def skipName (pos : Nat) : Option Nat :=
  match h : resp[pos]? with
  | none => none
  | some len =>
    if len &&& 0xc0 = 0xc0 then some (pos + 2)
    else if len = 0 then some (pos + 1)
    else skipName (pos + 1 + len.toNat)
termination_by resp.length - pos
decreasing_by
  have := (List.getElem?_eq_some_iff.mp h).1
  omega

theorem skipName_bind (pos : Nat) : skipName resp pos = resp[pos]?.bind fun len =>
    if len &&& 0xc0 = 0xc0 then some (pos + 2)
    else if len = 0 then some (pos + 1)
    else skipName resp (pos + 1 + len.toNat) := by
  rw [skipName]
  split <;> simp [*]

def skipQuestions : Nat → Nat → Option Nat
  | 0, pos => some pos
  | n + 1, pos => (skipName resp pos).bind fun pos => skipQuestions n (pos + 4)

def firstAddress : Nat → Nat → Option IpAddr
  | 0, _ => none
  | n + 1, pos =>
    (skipName resp pos).bind fun pos =>
      let rtype := u16At resp pos
      let rdlen := u16At resp (pos + 8)
      let data := pos + 10
      if resp.length < data ∨ resp.length < data + rdlen then none
      else if rtype = 1 ∧ rdlen = 4 then
        some (.v4 (.new (resp.getD data 0) (resp.getD (data + 1) 0) (resp.getD (data + 2) 0) (resp.getD (data + 3) 0)))
      else firstAddress n (data + rdlen)

def parseDnsA : Option IpAddr :=
  if resp.length < 12 then none
  else (skipQuestions resp (u16At resp 4) 12).bind (firstAddress resp (u16At resp 6))

end Message

def parseServer (entry : Text) : Option SocketAddr :=
  (parseSocketAddr entry).or ((parseIp entry).map fun ip => ⟨ip, 53⟩)

def defaultServers : List SocketAddr :=
  [⟨.v4 (.new 1 1 1 1), 53⟩, ⟨.v4 (.new 1 0 0 1), 53⟩]

def resolverAddresses (configured : Option Text) : List SocketAddr :=
  let tokens := (configured.getD []).splitOnP fun c => c = ',' || c = ' ' || c = ';'
  let servers := Distinct.distinct (((tokens.map Text.trim).filter (· ≠ [])).filterMap parseServer)
  if servers = [] then defaultServers else servers

inductive Failure
  | sendFailed
  | channelClosed
  | noRecord (name : Text)
  | timeout (name : Text)
  | unreachable
  | tcpClosed
  | tcpTooLarge
  | tcpMismatch (name : Text)
  | tcpTimeout (server : SocketAddr)
  | noSocket
deriving DecidableEq

-- An address, and who has given it, which the source does not keep.
structure Answer where
  source : Option SocketAddr
  ip : IpAddr
deriving DecidableEq

-- What the socket meets: the queries' numbers, whether they could be sent, the datagrams that arrive
-- before the time is up, and whether the socket is closed before that.
structure Udp where
  ids : Nat → UInt16
  sent : Nat → Bool
  inbox : List (SocketAddr × Bytes)
  closed : Bool

section Exchange

variable (servers : List SocketAddr) (name : Text)

def Udp.queries (u : Udp) : List (SocketAddr × UInt16) :=
  (servers.zipIdx.filter fun (_, i) => u.sent i).map fun (server, i) => (server, u.ids i)

-- The first datagram that answers any of the queries decides.
def receive (queries : List (SocketAddr × UInt16)) (closed : Bool) : List (SocketAddr × Bytes) → Except Failure Answer
  | [] => .error (if closed then .channelClosed else .timeout name)
  | (source, resp) :: inbox =>
    if queries.any fun (_, id) => dnsResponseMatches resp id name QTYPE_A then
      match parseDnsA resp with
      | some ip => .ok ⟨some source, ip⟩
      | none => .error (.noRecord name)
    else receive queries closed inbox

def dnsExchange (u : Udp) : Except Failure Answer :=
  if u.queries servers = [] then .error .sendFailed
  else receive name (u.queries servers) u.closed u.inbox

-- What an attempt over TCP meets: the query's number, whether it could be sent, the pieces that
-- arrive, and whether the connection is closed after them or the time is up.
structure Attempt where
  id : UInt16
  reached : Bool
  chunks : List Bytes
  inTime : Bool

def fill (n : Nat) : Bytes → List Bytes → Option (Bytes × List Bytes)
  | buf, [] => if n ≤ buf.length then some (buf, []) else none
  | buf, chunk :: chunks => if n ≤ buf.length then some (buf, chunk :: chunks) else fill n (buf ++ chunk) chunks

def attempt (server : SocketAddr) (a : Attempt) : Except Failure IpAddr :=
  let broken := fun (e : Failure) => if a.inTime then e else .tcpTimeout server
  if !a.reached then .error (broken .unreachable)
  else
    match fill 2 [] a.chunks with
    | none => .error (broken .tcpClosed)
    | some (buf, chunks) =>
      let len := u16At buf 0
      if 4096 < len then .error .tcpTooLarge
      else
        match fill (2 + len) buf chunks with
        | none => .error (broken .tcpClosed)
        | some (buf, _) =>
          let body := (buf.drop 2).take len
          if !dnsResponseMatches body a.id name QTYPE_A then .error (.tcpMismatch name)
          else
            match parseDnsA body with
            | some ip => .ok ip
            | none => .error (.noRecord name)

def attempts (last : Failure) : List (SocketAddr × Attempt) → Except Failure Answer
  | [] => .error last
  | (server, a) :: rest =>
    match attempt name server a with
    | .ok ip => .ok ⟨some server, ip⟩
    | .error e => attempts e rest

def dnsExchangeTcp (tcp : Nat → Attempt) : Except Failure Answer :=
  attempts name (.timeout name) (servers.zipIdx.map fun (server, i) => (server, tcp i))

end Exchange

inductive Mode
  | plain
  | doh
  | dot
deriving DecidableEq

def mode (value : Option Text) : Mode :=
  let value := (value.getD []).trim.map Char.toLower
  if value = "doh".toList then .doh
  else if value = "dot".toList then .dot
  else .plain

-- What one resolution meets. The encrypted channels are arbitrary, and there may be no socket.
structure World where
  encrypted : Option IpAddr
  udp : Option Udp
  tcp : Nat → Attempt

def dnsAnswer (m : Mode) (servers : List SocketAddr) (name : Text) (w : World) : Except Failure Answer :=
  match if m = .plain then none else w.encrypted with
  | some ip => .ok ⟨none, ip⟩
  | none =>
    match w.udp with
    | none => .error .noSocket
    | some u =>
      match dnsExchange servers name u with
      | .ok a => .ok a
      | .error _ => dnsExchangeTcp servers name w.tcp

def dnsResolve (m : Mode) (servers : List SocketAddr) (name : Text) (w : World) : Except Failure IpAddr :=
  (dnsAnswer m servers name w).map Answer.ip

-- Only servers that were asked answer.
def World.Honest (servers : List SocketAddr) (w : World) : Prop :=
  ∀ u ∈ w.udp, ∀ x ∈ u.inbox, x.1 ∈ (u.queries servers).map Prod.fst

end Engine.Dns
