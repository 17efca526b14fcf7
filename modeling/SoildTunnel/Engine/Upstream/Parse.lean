import SoildTunnel.Rust.Text

-- The upstream proxy as the engine reads it from its environment.
namespace Engine.Upstream

open Rust

inductive Kind
  | socks5
  | http
deriving DecidableEq

structure Proxy where
  kind : Kind
  host : Text
  port : UInt16
  user : Option Text
  password : Option Text
deriving DecidableEq

def malformed (endpoint : Text) : Text :=
  endpoint ++ " is not a host and port an upstream proxy can live at".toList

def hostPort (endpoint host port : Text) : Except Text (Text × UInt16) :=
  match Text.parseU16 port with
  | none => .error (malformed endpoint)
  | some port => if host = [] ∨ port = 0 then .error (malformed endpoint) else .ok (host, port)

-- The port is the part after the last colon or, behind an address in brackets, after its colon.
def splitEndpoint (endpoint : Text) : Except Text (Text × UInt16) :=
  match endpoint with
  | '[' :: rest =>
    match Delimited.cut ']' rest with
    | some (host, ':' :: port) => hostPort endpoint host port
    | _ => .error (malformed endpoint)
  | _ =>
    match Delimited.rcut ':' endpoint with
    | some (host, port) => hostPort endpoint host port
    | none => .error (malformed endpoint)

def hexDigit (b : UInt8) : Option UInt8 :=
  if 48 ≤ b ∧ b ≤ 57 then some (b - 48)
  else if 65 ≤ b ∧ b ≤ 70 then some (b - 55)
  else if 97 ≤ b ∧ b ≤ 102 then some (b - 87)
  else none

-- `u8::from_str_radix` of two bytes; a plus sign may stand for the first digit.
def hexPair (x y : UInt8) : Option UInt8 :=
  if x = 43 then hexDigit y
  else (hexDigit x).bind fun h => (hexDigit y).map fun l => h * 16 + l

def percentBytes : List UInt8 → List UInt8
  | [] => []
  | b :: r =>
    match r with
    | x :: y :: r' =>
      match if b = 37 then hexPair x y else none with
      | some v => v :: percentBytes r'
      | none => b :: percentBytes (x :: y :: r')
    | [x] => [b, x]
    | [] => [b]

def percentDecode (value : Text) : Text :=
  Text.fromUtf8Lossy (percentBytes (Text.utf8 value))

def kindOf (scheme : Text) : Except Text Kind :=
  if scheme ∈ ["socks5".toList, "socks5h".toList, "socks".toList] then .ok .socks5
  else if scheme ∈ ["http".toList, "https".toList] then .ok .http
  else .error (scheme ++ " is not an upstream proxy kind soildtunnel understands".toList)

def credentials : Option Text → Option Text × Option Text
  | none => (none, none)
  | some pair =>
    match Delimited.cut ':' pair with
    | some (user, password) => (some (percentDecode user), some (percentDecode password))
    | none => (some (percentDecode pair), none)

-- Without a scheme the proxy is read as a SOCKS5 one.
def splitScheme (cm : CaseMap) (raw : Text) : Text × Text :=
  match Text.splitOnce "://".toList raw with
  | some (scheme, rest) => (cm.toLowercase scheme, rest)
  | none => ("socks5".toList, raw)

def splitLogin (rest : Text) : Option Text × Text :=
  match Delimited.rcut '@' rest with
  | some (pair, endpoint) => (some pair, endpoint)
  | none => (none, rest)

def parse (cm : CaseMap) (raw : Text) : Except Text Proxy := do
  let (scheme, rest) := splitScheme cm (Text.trim raw)
  let kind ← kindOf scheme
  let (pair, endpoint) := splitLogin rest
  let (host, port) ← splitEndpoint (Text.trimEndMatches '/' endpoint)
  let (user, password) := credentials pair
  return ⟨kind, host, port, user, password⟩

-- `Upstream::from_env`: a setting that cannot be read is reported and otherwise ignored.
def fromEnv (cm : CaseMap) (value : Option Text) : Option Proxy :=
  value.bind fun raw =>
    if Text.trim raw = [] then none else (parse cm (Text.trim raw)).toOption

end Engine.Upstream
