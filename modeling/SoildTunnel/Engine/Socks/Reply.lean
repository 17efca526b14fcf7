import SoildTunnel.Engine.Socks.Connect
import SoildTunnel.Engine.Socks.Gateway

-- What the client of a CONNECT request gets to read.
namespace Engine.Socks

open Rust

def VER : UInt8 := 0x05

def REP_OK : UInt8 := 0x00
def REP_GENERAL : UInt8 := 0x01
def REP_NOT_ALLOWED : UInt8 := 0x02

-- A reply of the protocol, where `reply_bound` is only used with the address 0.0.0.0:0, or bytes that
-- are passed on.
inductive Message
  | reply (code : UInt8)
  | remote (bytes : Bytes)
deriving DecidableEq

def Message.bytes : Message → Bytes
  | .reply code => [VER, code, 0x00, ATYP_V4, 0, 0, 0, 0, 0, 0]
  | .remote bytes => bytes

-- How a connection goes: what the first read brings, the gateway and how it goes to open a connection
-- through it (with the bytes after its answer), whether the other ways to connect succeed, whether
-- the bytes that were read get through, and what the remote side sends. A write to the client may
-- fail.
structure Course where
  read : Read
  gateway : Option SocketAddr
  answer : Except GatewayError Bytes
  dialed : Bool
  connected : Bool
  forwarded : Bool
  chunks : List Bytes
  accepts : Nat → Bool

section Messages

variable (c : Course) (head : Bytes) (replied : Bool)

def unlessReplied (code : UInt8) : List Message :=
  if replied then [] else [.reply code]

-- The bytes that were read from the client stand before all others.
def forwards : Bool :=
  head = [] || c.forwarded

def relay (received : List Bytes) : List Message :=
  if forwards c head then received.map .remote else []

-- `open_tcp`, or the gateway and then `open_tcp`: what is left over of the gateway's answer.
def openConnection (port : UInt16) : Option Bytes :=
  match if c.gateway.isSome && shouldUseGateway port then c.answer.toOption else none with
  | some leftover => some leftover
  | none => if c.dialed then some [] else none

def received (leftover : Bytes) : List Bytes :=
  (if leftover = [] then [] else [leftover]) ++ c.chunks

def handleDirect : List Message :=
  if !c.connected then unlessReplied replied REP_GENERAL
  else if forwards c head then unlessReplied replied REP_OK ++ c.chunks.map .remote
  else []

def handleProxy (port : UInt16) : List Message :=
  match openConnection c port with
  | none => [.reply REP_GENERAL]
  | some leftover => unlessReplied replied REP_OK ++ relay c head (received c leftover)

end Messages

variable (cm : CaseMap) (set : RuleSet) (sniffEnabled : Bool)

def handleRouted (target : Target) (port : UInt16) (c : Course) (head : Bytes) (replied : Bool) : List Message :=
  match connectAction cm set sniffEnabled target port head with
  | .block => unlessReplied replied REP_NOT_ALLOWED
  | .direct => handleDirect c head replied
  | .proxy => handleProxy c head replied port

-- What `handle_connect` has for the client. Looking for a name takes a reply first.
def messages (target : Target) (port : UInt16) (c : Course) : List Message :=
  if sniffs set sniffEnabled target then
    .reply REP_OK :: match readSniffHead c.read with
      | none => []
      | some head => handleRouted cm set sniffEnabled target port c head true
  else
    handleRouted cm set sniffEnabled target port c [] false

-- A write that fails is the last one.
def writeEach (accepts : Nat → Bool) : Nat → List Message → List Message
  | _, [] => []
  | n, m :: ms => m :: if accepts n then writeEach accepts (n + 1) ms else []

def clientWrites (target : Target) (port : UInt16) (c : Course) : List Message :=
  writeEach c.accepts 0 (messages cm set sniffEnabled target port c)

end Engine.Socks
