import SoildTunnel.Engine.Upstream.Parse
import SoildTunnel.Engine.ZeroTrust
import SoildTunnel.Lib.Search
import SoildTunnel.Rust.Radix

-- What a sign-in reads out of the pages, addresses and cookies that it is sent.
namespace Engine.ZeroTrust

open Rust

section Entities

def numericEntity (entity : Text) : Option Char :=
  let hex := (Text.stripPrefix "#x".toList entity).or (Text.stripPrefix "#X".toList entity)
  ((hex.bind (Text.fromStrRadix 32 16)).or
    ((Text.stripPrefix "#".toList entity).bind (Text.fromStrRadix 32 10))).bind Text.charFromU32

def decodeEntity (entity : Text) : Option Char :=
  if entity = "amp".toList then some '&'
  else if entity = "lt".toList then some '<'
  else if entity = "gt".toList then some '>'
  else if entity = "quot".toList then some '"'
  else if entity = "apos".toList ∨ entity = "#39".toList then some '\''
  else numericEntity entity

-- The entity at the front of a text that begins with an ampersand, and what comes after it. The
-- semicolon is looked for in all of the text, and taken if it is at most 8 bytes behind the ampersand.
def leadingEntity (tail : Text) : Option (Char × Text) :=
  match Delimited.cut ';' tail with
  | some (entity, after) =>
    if (Text.utf8 ('&' :: entity)).length ≤ 8 then (decodeEntity entity).map fun c => (c, after) else none
  | none => none

-- A round of the loop: what is put out, and what is left. It ends when there is no ampersand.
def entityRound (rest : Text) : Option (Text × Text) :=
  match Delimited.cut '&' rest with
  | none => none
  | some (before, tail) =>
    match leadingEntity tail with
    | some (c, after) => some (before ++ [c], after)
    | none => some (before ++ ['&'], tail)

-- The loop of `decode_entities`, if it ends within the given number of rounds.
def decodeEntities : Nat → Text → Text → Option Text
  | 0, _, _ => none
  | rounds + 1, out, rest =>
    match entityRound rest with
    | none => some (out ++ rest)
    | some (text, rest) => decodeEntities rounds (out ++ text) rest

end Entities

section Query

-- A plus sign stands for a blank.
def literal (b : UInt8) : UInt8 :=
  if b = 43 then 32 else b

-- The bytes of a value, where two bytes after a percent sign may stand for another one.
def percentWith (pair : UInt8 → UInt8 → Option UInt8) : Bytes → Bytes
  | b :: x :: y :: r =>
    match if b = 37 then pair x y else none with
    | some v => v :: percentWith pair r
    | none => literal b :: percentWith pair (x :: y :: r)
  | bytes => bytes.map literal

def percentDecode (raw : Text) : Text :=
  Text.fromUtf8Lossy (percentWith Upstream.hexPair raw.utf8)

-- The value of a parameter, if it is the one that is asked for.
def valueNamed (key : Text) (param : Text × Text) : Option Text :=
  if param.1 = key then some (percentDecode param.2) else none

-- The loop gives up at a parameter without an equals sign.
def queryValue (url key : Text) : Option Text :=
  (Delimited.cut '?' url).bind fun x => Search.scan (Delimited.cut '=') (valueNamed key) (x.2.splitOn '&')

end Query

section Cookie

def authorization (part : Text) : Option Text :=
  let entry := part.trim
  (Text.stripPrefix "CF_Authorization=".toList entry).or (Text.stripPrefix "cf_authorization=".toList entry)

-- The loop gives up at a cookie of another name.
def extractJwtFromCookie (libs : Libs) (header : Text) : Option Text :=
  Search.scan authorization (Option.guard (looksLikeJwt libs)) (header.splitOn ';')

end Cookie

end Engine.ZeroTrust
