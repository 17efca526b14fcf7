import SoildTunnel.Engine.Net
import SoildTunnel.Lib.Lts
import SoildTunnel.Rust.Text

-- Enrolment into organisations: their names, and the token that a process keeps between sign-ins.
namespace Engine.ZeroTrust

open Rust

def TEAM_SUFFIX : Text := "cloudflareaccess.com".toList

def isTeamChar (c : Char) : Bool :=
  c.isAlphanum || c = '-' || c = '_'

-- What is left of an address that was given in place of the name.
def teamName (value : Text) : Text :=
  let value := (Text.stripPrefix "https://".toList value).getD value
  let value := (Text.stripPrefix "http://".toList value).getD value
  let value := Text.trimEndMatches '/' value
  let value := (value.splitOn '/').headD value
  match Text.stripSuffix TEAM_SUFFIX value with
  | some head => Text.trimEndMatches '.' head
  | none => value

def normalizeTeam (cm : CaseMap) (raw : Text) : Option Text :=
  let value := cm.toLowercase raw.trim
  if value = [] then none
  else
    let value := teamName value
    if value ≠ [] ∧ value.all isTeamChar then some value else none

abbrev Team (cm : CaseMap) :=
  { name : Text // ∃ raw, normalizeTeam cm raw = some name }

structure TeamSettings where
  team : Text
  clientId : Option Text := none
  clientSecret : Option Text := none
  token : Option Text := none
  email : Option Text := none

def TeamSettings.hasServiceToken (s : TeamSettings) : Bool :=
  s.clientId.isSome && s.clientSecret.isSome

-- What the base64 library makes of a segment, and what the JSON library finds under the key `exp` of
-- a document, if it is an unsigned number.
structure Libs where
  urlSafeNoPad : Text → Option Bytes
  exp : Bytes → Option Nat

variable (libs : Libs)

def decodeSegment (segment : Text) : Option Bytes :=
  libs.urlSafeNoPad segment

def looksLikeJwt (token : Text) : Bool :=
  let token := token.trim
  let segments := token.splitOn '.'
  32 ≤ token.utf8.length && segments.length = 3 && segments.all (· ≠ []) &&
    token.all (fun c => c.isAlphanum || c = '.' || c = '-' || c = '_') &&
    (segments.head?.bind (decodeSegment libs)).isSome

def jwtExpiry (token : Text) : Option Nat :=
  match token.splitOn '.' with
  | [_, payload, _] => (decodeSegment libs payload).bind libs.exp
  | _ => none

def jwtExpired (token : Text) (now : Nat) : Bool :=
  match jwtExpiry libs token with
  | some exp => exp ≤ now
  | none => false

def NOT_A_JWT : String :=
  "the supplied access token is not a jwt; copy the value that follows token= on the enrolment page"

def EXPIRED : String :=
  "the supplied access token has expired; sign in again to get a fresh one"

def TeamSettings.loginUrl (s : TeamSettings) : String :=
  "https://" ++ String.ofList s.team ++ ".cloudflareaccess.com/warp"

def TeamSettings.needsMethod (s : TeamSettings) : String :=
  "team " ++ String.ofList s.team ++ " needs a way to sign in. pick one: a service token via " ++
    "SOILDTUNNEL_ACCESS_CLIENT_ID and SOILDTUNNEL_ACCESS_CLIENT_SECRET, an email one-time code via " ++
    "SOILDTUNNEL_ACCESS_EMAIL, or a token you already hold via SOILDTUNNEL_ACCESS_TOKEN " ++
    "(sign in at " ++ s.loginUrl ++ ")"

-- `fetched` is what comes of asking the servers of the team, with a service token or with a code
-- that is sent by mail.
def signIn (settings : TeamSettings) (now : Nat) (fetched : Except String Text) : Except String Text :=
  match settings.token with
  | some token =>
    if !looksLikeJwt libs token then .error NOT_A_JWT
    else if jwtExpired libs token now then .error EXPIRED
    else .ok token
  | none =>
    if settings.hasServiceToken then fetched
    else if settings.email.isSome then fetched
    else .error settings.needsMethod

-- The process: `TOKEN_CACHE`, and the history of the sign-ins and of the answers that were given.
structure Process where
  cache : Option Text := none
  signIns : List (Text × Text) := []
  returned : List (TeamSettings × Text) := []

structure Call where
  settings : TeamSettings
  now : Nat
  fetched : Except String Text

namespace Process

def reusable (p : Process) (now : Nat) : Option Text :=
  p.cache.filter fun cached => !jwtExpired libs cached now

def resolveToken (p : Process) (call : Call) : Process :=
  match p.reusable libs call.now with
  | some cached => { p with returned := p.returned ++ [(call.settings, cached)] }
  | none =>
    match signIn libs call.settings call.now call.fetched with
    | .ok token =>
      { cache := some token
        signIns := p.signIns ++ [(call.settings.team, token)]
        returned := p.returned ++ [(call.settings, token)] }
    | .error _ => { p with cache := none }

def step (p : Process) (call : Call) : Option Process :=
  some (p.resolveToken libs call)

end Process

end Engine.ZeroTrust
