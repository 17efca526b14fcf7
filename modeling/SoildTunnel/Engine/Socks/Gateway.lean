import SoildTunnel.Engine.Socks.Http

-- The organisation's gateway: an HTTP proxy inside the tunnel that web connections go through.
namespace Engine.Socks

open Rust

def shouldUseGateway (port : UInt16) : Bool :=
  port = 80 || port = 443

def UA_REGISTER : Text := "WARP for Android".toList

def buildProxyConnect (target : Text) (port : UInt16) : Bytes :=
  let port := Nat.toDigits 10 port.toNat
  let authority :=
    if ':' ∈ target ∧ target.head? ≠ some '[' then '[' :: target ++ "]:".toList ++ port
    else target ++ ':' :: port
  Text.utf8 ("CONNECT ".toList ++ authority ++ " HTTP/1.1\r\nHost: ".toList ++ authority ++
    "\r\nUser-Agent: ".toList ++ UA_REGISTER ++ "\r\n\r\n".toList)

def proxyConnectSucceeded (head : Bytes) : Option Bool :=
  (Text.splitOnce ['\r', '\n'] (Text.fromUtf8Lossy head)).bind fun (line, _) =>
    (Text.splitWhitespace line)[1]?.bind fun status =>
      (Text.parseU16 status).map fun status => 200 ≤ status && status < 300

def findHeadEnd : Bytes → Option Nat
  | [] => none
  | b :: rest =>
    if CRLFCRLF.isPrefixOf (b :: rest) then some 4
    else (findHeadEnd rest).map (· + 1)

def GATEWAY_HEAD_LIMIT : Nat := 8192

inductive GatewayError
  | notAccepted
  | notSent
  | noAnswer
  | closed
  | malformed
  | refused (authority : Text) (port : UInt16) (status : Text)
  | oversized
deriving DecidableEq

-- The gateway is not reachable, or does not speak the protocol.
def GatewayError.faulty : GatewayError → Bool
  | .refused .. => false
  | _ => true

inductive AttemptPc
  | start
  | connect
  | ask (request : Bytes)
  | answer (head : Bytes)
  | failed (error : GatewayError)
  | through (leftover : Bytes)
  -- Opened without the gateway, with the error of the gateway if it was tried.
  | dial (error : Option GatewayError)
  | around (error : Option GatewayError)
  | ended
deriving DecidableEq

structure Attempt where
  target : Target
  port : UInt16
  pc : AttemptPc := .start
deriving DecidableEq

inductive AttemptLabel
  | route
  | connect (ok : Bool)
  | ask (ok : Bool)
  | chunk (bytes : Bytes)
  | noAnswer
  | closed
  | retire
  | dial (ok : Bool)
deriving DecidableEq

namespace Attempt

def readAnswer (a : Attempt) (head : Bytes) : AttemptPc :=
  match findHeadEnd head with
  | some pos =>
    match proxyConnectSucceeded head with
    | none => .failed .malformed
    | some false =>
      let status := Text.trim (Text.firstLine (Text.fromUtf8Lossy (head.take pos)))
      .failed (.refused a.target.display a.port status)
    | some true => .through (head.drop pos)
  | none => if GATEWAY_HEAD_LIMIT < head.length then .failed .oversized else .answer head

def receive (a : Attempt) (head : Bytes) : List Bytes → AttemptPc × List Bytes
  | [] => (.answer head, [])
  | chunk :: chunks =>
    match a.readAnswer (head ++ chunk) with
    | .answer head => receive a head chunks
    | pc => (pc, chunks)

-- `handle_connect` and `open_tunneled` do the same here. `gateway` is what `gateway_proxy` returns.
def next (gateway : Option SocketAddr) (a : Attempt) : AttemptLabel → Option AttemptPc
  | .route =>
    if a.pc = .start then
      some (if gateway.isSome && shouldUseGateway a.port then .connect else .dial none)
    else
      none
  | .connect ok =>
    if a.pc = .connect then
      some (if ok then .ask (buildProxyConnect a.target.display a.port) else .failed .notAccepted)
    else
      none
  | .ask ok =>
    match a.pc with
    | .ask _ => some (if ok then .answer [] else .failed .notSent)
    | _ => none
  | .chunk bytes =>
    match a.pc with
    | .answer head => some (a.readAnswer (head ++ bytes))
    | _ => none
  | .noAnswer =>
    match a.pc with
    | .answer _ => some (.failed .noAnswer)
    | _ => none
  | .closed =>
    match a.pc with
    | .answer _ => some (.failed .closed)
    | _ => none
  | .retire =>
    match a.pc with
    | .failed error => some (.dial (some error))
    | _ => none
  | .dial ok =>
    match a.pc with
    | .dial error => some (if ok then .around error else .ended)
    | _ => none

end Attempt

structure Gateway where
  proxy : Option SocketAddr
  healthy : Bool := true
  attempts : List Attempt := []
  -- Whether some attempt has found the gateway faulty; the code does not keep this.
  faulty : Bool := false

inductive GatewayLabel
  | accept (target : Target) (port : UInt16)
  | attempt (i : Nat) (l : AttemptLabel)

namespace Gateway

def gatewayProxy (s : Gateway) : Option SocketAddr :=
  if s.healthy then s.proxy else none

def faultOf : AttemptPc → Bool
  | .failed error => error.faulty
  | _ => false

def step (s : Gateway) : GatewayLabel → Option Gateway
  | .accept target port => some { s with attempts := s.attempts ++ [⟨target, port, .start⟩] }
  | .attempt i l =>
    s.attempts[i]?.bind fun a =>
      (a.next s.gatewayProxy l).map fun pc =>
        { s with
          healthy := s.healthy && l ≠ .retire
          attempts := s.attempts.set i { a with pc }
          faulty := s.faulty || faultOf pc }

end Gateway

end Engine.Socks
