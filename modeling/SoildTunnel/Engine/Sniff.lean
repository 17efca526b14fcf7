import SoildTunnel.Engine.Addr

-- Reading a host name out of the first bytes of a connection.
namespace Engine.Sniff

open Rust

def TLS_HANDSHAKE : UInt8 := 0x16
def TLS_CLIENT_HELLO : UInt8 := 0x01
def EXT_SERVER_NAME : Nat := 0
def SNI_HOST_NAME : UInt8 := 0
def MAX_HOST_LEN : Nat := 253
def PEEK_BUDGET : Nat := 4096

def be16 (buf : Bytes) (pos : Nat) : Option Nat := do
  let hi ← buf[pos]?
  let lo ← buf[pos + 1]?
  return hi.toNat * 256 + lo.toNat

def be24 (buf : Bytes) (pos : Nat) : Option Nat := do
  let a ← buf[pos]?
  let b ← buf[pos + 1]?
  let c ← buf[pos + 2]?
  return a.toNat * 65536 + b.toNat * 256 + c.toNat

def slice (buf : Bytes) (lo hi : Nat) : Option Bytes :=
  if lo ≤ hi ∧ hi ≤ buf.length then some ((buf.drop lo).take (hi - lo)) else none

def isHostByte (b : UInt8) : Bool :=
  (48 ≤ b && b ≤ 57) || (65 ≤ b && b ≤ 90) || (97 ≤ b && b ≤ 122) || b = 45 || b = 46 || b = 95

def plausibleHost (cm : CaseMap) (raw : Bytes) : Option Text :=
  if raw = [] ∨ MAX_HOST_LEN < raw.length then none
  else do
    let text ← Text.fromUtf8 raw
    let name := Text.trimEndMatches '.' (Text.trim text)
    let bytes := Text.utf8 name
    if name = [] ∨ MAX_HOST_LEN < bytes.length then none
    else if !bytes.all isHostByte || '.' ∉ name then none
    else if (parseIp name).isSome then none
    else some (cm.toLowercase name)

-- The entries of a list from `pos` on; the first of the kind of a host name counts.
def serverName (cm : CaseMap) (data : Bytes) (listEnd pos : Nat) : Option Text :=
  if pos + 3 ≤ listEnd then
    match data[pos]?, be16 data (pos + 1) with
    | some kind, some len =>
      if listEnd < pos + 3 + len then none
      else if kind = SNI_HOST_NAME then (slice data (pos + 3) (pos + 3 + len)).bind (plausibleHost cm)
      else serverName cm data listEnd (pos + 3 + len)
    | _, _ => none
  else
    none
termination_by listEnd - pos

def firstServerName (cm : CaseMap) (data : Bytes) : Option Text := do
  let listLen ← be16 data 0
  serverName cm data (min (2 + listLen) data.length) 2

def extensions (cm : CaseMap) (hello : Bytes) (extensionsEnd pos : Nat) : Option Text :=
  if pos + 4 ≤ extensionsEnd then
    match be16 hello pos, be16 hello (pos + 2) with
    | some kind, some len =>
      if extensionsEnd < pos + 4 + len then none
      else if kind = EXT_SERVER_NAME then (slice hello (pos + 4) (pos + 4 + len)).bind (firstServerName cm)
      else extensions cm hello extensionsEnd (pos + 4 + len)
    | _, _ => none
  else
    none
termination_by extensionsEnd - pos

def tlsSni (cm : CaseMap) (buf : Bytes) : Option Text := do
  let first ← buf.head?
  if first ≠ TLS_HANDSHAKE then none
  else
    let recordLen ← be16 buf 3
    let body ← slice buf 5 (min (5 + recordLen) buf.length)
    let kind ← body.head?
    if kind ≠ TLS_CLIENT_HELLO then none
    else
      let helloLen ← be24 body 1
      let hello ← slice body 4 (min (4 + helloLen) body.length)
      let sessionLen ← hello[34]?
      let pos := 34 + (1 + sessionLen.toNat)
      let cipherLen ← be16 hello pos
      let pos := pos + (2 + cipherLen)
      let compressionLen ← hello[pos]?
      let pos := pos + (1 + compressionLen.toNat)
      let extensionsLen ← be16 hello pos
      let pos := pos + 2
      extensions cm hello (min (pos + extensionsLen) hello.length) pos

def METHODS : List Text :=
  ["GET ", "POST ", "PUT ", "HEAD ", "DELETE ", "OPTIONS ", "PATCH ", "TRACE ", "CONNECT "].map
    String.toList

def looksLikeHttp (line : Text) : Bool :=
  METHODS.any (·.isPrefixOf line) && Text.contains "HTTP/".toList line

-- The port behind the last colon is dropped, also when it is empty.
def withoutPort (value : Text) : Text :=
  match Delimited.rcut ':' value with
  | some (host, port) => if port.all Char.isDigit then host else value
  | none => value

def hostHeader (cm : CaseMap) : List Text → Option Text
  | [] => none
  | line :: lines =>
    if line = [] then none
    else match Delimited.cut ':' line with
      | none => hostHeader cm lines
      | some (name, value) =>
        if Text.eqIgnoreAsciiCase name "host".toList then
          plausibleHost cm (Text.utf8 (withoutPort (Text.trim value)))
        else
          hostHeader cm lines

def httpHost (cm : CaseMap) (buf : Bytes) : Option Text :=
  match Text.splitCrlf (Text.fromUtf8Lossy (buf.take PEEK_BUDGET)) with
  | [] => none
  | requestLine :: lines => if looksLikeHttp requestLine then hostHeader cm lines else none

def hostname (cm : CaseMap) (buf : Bytes) : Option Text :=
  (tlsSni cm buf).or (httpHost cm buf)

end Engine.Sniff
