import SoildTunnel.Engine.Socks.Connect
import SoildTunnel.Lib.Lts

-- The HTTP front end.
namespace Engine.Socks

open Rust

def HTTP_HEAD_LIMIT : Nat := 16 * 1024

structure HttpRequestLine where
  method : Text
  authority : Text
  port : UInt16
  rewritten : Option Text
deriving DecidableEq

def parseAuthority (raw : Text) (defaultPort : UInt16) : Option (Text × UInt16) :=
  match Text.trim raw with
  | [] => none
  | '[' :: rest =>
    (Delimited.cut ']' rest).bind fun (host, tail) =>
      if host = [] then none
      else match tail with
        | ':' :: value => (Text.parseU16 value).map fun port => (host, port)
        | _ => some (host, defaultPort)
  | raw =>
    match Delimited.rcut ':' raw with
    | some (host, port) =>
      if ':' ∈ host then some (raw, defaultPort)
      else if host = [] then none
      else (Text.parseU16 port).map fun port => (host, port)
    | none => some (raw, defaultPort)

def splitPath (url : Text) : Text × Text :=
  match Delimited.cut '/' url with
  | some (authority, path) => (authority, '/' :: path)
  | none => (url, ['/'])

def parseRequestLine (line : Text) : Option HttpRequestLine :=
  match Text.splitWhitespace line with
  | method :: target :: rest =>
    let version := rest.headD "HTTP/1.1".toList
    if Text.eqIgnoreAsciiCase method "CONNECT".toList then
      (parseAuthority target 443).map fun (authority, port) => ⟨method, authority, port, none⟩
    else
      ((Text.stripPrefix "http://".toList target).or (Text.stripPrefix "HTTP://".toList target)).bind
        fun url =>
          let (authority, path) := splitPath url
          (parseAuthority authority 80).map fun (authority, port) =>
            ⟨method, authority, port, some (method ++ ' ' :: path ++ ' ' :: version ++ ['\r', '\n'])⟩
  | _ => none

def CRLFCRLF : Bytes := [13, 10, 13, 10]

def readHead (head : Bytes) : Bytes → Option (Bytes × Bytes)
  | [] => none
  | b :: rest =>
    let head := head ++ [b]
    if CRLFCRLF.isSuffixOf head then some (head, rest)
    else if HTTP_HEAD_LIMIT < head.length then none
    else readHead head rest

def httpTarget (authority : Text) : Target :=
  match parseIp authority with
  | some ip => .ip ip
  | none => .domain authority

def requestOf (head : Bytes) : Option HttpRequestLine :=
  parseRequestLine (Text.firstLine (Text.fromUtf8Lossy head))

variable (cm : CaseMap) (set : RuleSet)

def httpAction (request : HttpRequestLine) : Action :=
  set.decide cm (hostOf (httpTarget request.authority)) request.port

-- What goes out before the relaying starts: the head with its first line rewritten.
def preamble (request : HttpRequestLine) (head : Bytes) : Bytes :=
  match request.rewritten with
  | some line =>
    let rest := ((Text.splitOnce ['\r', '\n'] (Text.fromUtf8Lossy head)).map (·.2)).getD []
    Text.utf8 (line ++ rest)
  | none => []

-- A byte of the client with the number of the request that it belongs to.
abbrev Owned := UInt8 × Nat

structure HttpConn where
  authority : Text
  port : UInt16
  action : Action
deriving DecidableEq

inductive HttpPc
  | head
  | dial (request : HttpRequestLine) (head : Bytes)
  | preamble (bytes : Bytes)
  | relay
  | done
deriving DecidableEq

-- A connection of a client: what it has not been read of, the connection that was opened for it, and
-- what was sent there. `handle_http_client` and `relay_http_direct` open at most one.
structure HttpClient where
  stream : List Owned
  pc : HttpPc := .head
  opened : Option HttpConn := none
  sent : List Owned := []

inductive HttpLabel
  | head
  | dial (ok : Bool)
  | preamble (written : Nat)
  | relay (read written : Nat)
  | close

namespace HttpClient

-- Reading the head ends in an error, in a refusal or in an attempt to open a connection.
def headStep (s : HttpClient) : HttpClient :=
  match readHead [] (s.stream.map (·.1)) with
  | none => { s with pc := .done }
  | some (head, _) =>
    let stream := s.stream.drop head.length
    match requestOf head with
    | none => { s with stream, pc := .done }
    | some request =>
      if httpAction cm set request = .block then { s with stream, pc := .done }
      else { s with stream, pc := .dial request head }

-- A write may break off; then so does the connection.
def step (s : HttpClient) : HttpLabel → Option HttpClient
  | .head => if s.pc = .head then some (s.headStep cm set) else none
  | .dial ok =>
    match s.pc with
    | .dial request head =>
      if ok then
        some { s with
          opened := some ⟨request.authority, request.port, httpAction cm set request⟩
          pc := .preamble (Socks.preamble request head) }
      else
        some { s with pc := .done }
    | _ => none
  | .preamble written =>
    match s.pc with
    | .preamble bytes =>
      some { s with
        sent := s.sent ++ (bytes.take written).map (·, 0)
        pc := if bytes.length ≤ written then .relay else .done }
    | _ => none
  | .relay read written =>
    if s.pc = .relay then
      some { s with
        stream := s.stream.drop read
        sent := s.sent ++ (s.stream.take read).take written
        pc := if read ≤ written then .relay else .done }
    else
      none
  | .close => some { s with pc := .done }

end HttpClient

end Engine.Socks
