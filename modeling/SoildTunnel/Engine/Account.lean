import SoildTunnel.Engine.Addr
import SoildTunnel.Engine.Config

-- The account API: each call goes over a direct route, and if that fails over a camouflaged one.
namespace Engine.Account

open Rust

inductive Error
  | io (e : String)
  | tls (e : String)
  | api (text : String)
  | identityRefused (text : String)
  | other (text : String)
deriving DecidableEq

def Error.display : Error → String
  | .io e => "io: " ++ e
  | .tls e => "tls: " ++ e
  | .api text => "api: " ++ text
  | .identityRefused text => "identity refused: " ++ text
  | .other text => "other: " ++ text

abbrev Returns (α : Type) := Option (Except Error α)

structure Peer where
  publicKey : Text
  endpointV4 : Text := []

structure AccountData where
  id : Text
  token : Text := []
  addressV4 : Text := []
  addressV6 : Text := []
  peers : List Peer := []
  clientId : Text := []
  httpProxy : Text := []
  organization : Text := []

-- A JSON document. A number may be one that fits `i64`.
inductive Value
  | null
  | bool (b : Bool)
  | number (asI64 : Option Int)
  | string (s : String)
  | array (values : List Value)
  | object (fields : List (String × Value))

def Value.get (key : String) : Value → Option Value
  | .object fields => fields.lookup key
  | _ => none

def Value.asStr : Value → Option String
  | .string s => some s
  | _ => none

def Value.asI64 : Value → Option Int
  | .number n => n
  | _ => none

def Value.asArray : Value → Option (List Value)
  | .array values => some values
  | _ => none

structure Libs where
  value : Text → Option Value
  account : Text → Except String AccountData
  displayStatus : Nat → String

-- The characters that fill the first bytes; a slice that ends inside of one panics.
def sliceTo (n : Nat) : Text → Option Text
  | [] => if n = 0 then some [] else none
  | c :: t =>
    if n = 0 then some []
    else if (String.utf8EncodeChar c).length ≤ n then
      (sliceTo (n - (String.utf8EncodeChar c).length) t).map (c :: ·)
    else none

variable (libs : Libs)

def describeError (entry : Value) : String :=
  let message := ((entry.get "message").bind Value.asStr).getD "unknown"
  match (entry.get "code").bind Value.asI64 with
  | some code => message ++ " (code " ++ toString code ++ ")"
  | none => message

def extractApiError (body : Text) : Option String := do
  let value ← libs.value body
  let errors ← (← value.get "errors").asArray
  if errors = [] then none else some ("; ".intercalate (errors.map describeError))

def hint (status : Nat) : String :=
  if status = 403 then
    " (cloudflare refused this network; the address looks flagged, try again later, switch network, or import " ++
      "an existing identity)"
  else if status = 429 then
    " (too many registrations from this address; wait a few minutes before trying again)"
  else
    ""

def rejectionDetail (body : Text) : Option String :=
  match extractApiError libs body with
  | some detail => some detail
  | none =>
    let trimmed := body.trim
    if trimmed = [] then some "no details returned"
    else if 220 < trimmed.utf8.length then (sliceTo 220 trimmed).map fun head => String.ofList head ++ "…"
    else some (String.ofList trimmed)

def describeRejection (status : Nat) (body : Text) : Option String :=
  (rejectionDetail libs body).map fun detail =>
    "status " ++ libs.displayStatus status ++ ": " ++ detail ++ hint status

-- Only three digits make a status code.
def describeStatus (status : Nat) (body : Text) : Option String :=
  if 100 ≤ status ∧ status < 1000 then describeRejection libs status body
  else some ("status " ++ toString status ++ ": " ++ String.ofList body)

def isSuccess (status : Nat) : Bool :=
  200 ≤ status ∧ status < 300

def refusesIdentity (status : Nat) : Bool :=
  status = 401 ∨ status = 404 ∨ status = 410

def worthRetrying (status : Nat) : Bool :=
  status = 429 ∨ status = 408 ∨ (500 ≤ status ∧ status < 600)

section Direct

def API_ATTEMPTS : Nat := 5

-- What comes of an attempt: there is no client, nothing is sent, or there is an answer whose body may
-- be lost on the way.
inductive Sent
  | notBuilt (e : String)
  | failed (e : String)
  | answered (status : Nat) (body : Except String Text)

def rejected (label : String) (status : Nat) (described : String) : Error :=
  if refusesIdentity status then .identityRefused (label ++ ": " ++ described)
  else .api (label ++ ": " ++ described)

def sendLoop (label : String) (lastError : Error) : List Sent → Returns AccountData
  | [] => some (.error lastError)
  | .notBuilt e :: _ => some (.error (.api e))
  | .failed e :: rest => sendLoop label (.api (label ++ ": " ++ e)) rest
  | .answered _ (.error e) :: _ => some (.error (.api (label ++ ": " ++ e)))
  | .answered status (.ok body) :: rest =>
    if isSuccess status then
      some ((libs.account body).mapError fun e =>
        .api (label ++ " decode: " ++ e ++ "; body=" ++ String.ofList body))
    else
      (describeRejection libs status body).bind fun described =>
        if worthRetrying status then sendLoop label (rejected label status described) rest
        else some (.error (rejected label status described))

def attempts (direct : Nat → Sent) : List Sent :=
  (List.range API_ATTEMPTS).map direct

def sendWithRetry (label : String) (direct : Nat → Sent) : Returns AccountData :=
  sendLoop libs label (.api (label ++ ": no attempt was made")) (attempts direct)

end Direct

section Camouflaged

inductive Fingerprint
  | splitLegacy
  | modern
  | chromeLike

def Fingerprint.label : Fingerprint → String
  | .splitLegacy => "split-tls12"
  | .modern => "plain-tls13"
  | .chromeLike => "chrome"

def Fingerprint.all : List Fingerprint :=
  [.splitLegacy, .modern, .chromeLike]

structure ApiResponse where
  status : Nat
  body : Text
  route : String

inductive Failure
  | api (text : String)
  | tls (e : String)

def Failure.toError : Failure → Error
  | .api text => .api text
  | .tls e => .tls e

-- The addresses that are tried, and what an exchange over one of them comes to.
structure Front where
  addresses : List SocketAddr
  exchange : Fingerprint → SocketAddr → Except Failure (Nat × Text)

def displaySocketAddr (a : SocketAddr) : String :=
  match a.ip with
  | .v4 ip => String.ofList ip.display ++ ":" ++ toString a.port
  | .v6 ip => "[" ++ String.ofList ip.display ++ "]:" ++ toString a.port

def Front.exchanges (f : Front) : List (Except Failure ApiResponse) :=
  Fingerprint.all.flatMap fun fingerprint => f.addresses.map fun address =>
    (f.exchange fingerprint address).map fun (status, body) =>
      { status, body, route := displaySocketAddr address ++ " / " ++ fingerprint.label }

-- The first success, else the first rejection or a later one that is not 403.
def fetchLoop (rejection : Option ApiResponse) (failure : Option Failure) :
    List (Except Failure ApiResponse) → Except Failure ApiResponse
  | [] =>
    match rejection with
    | some response => .ok response
    | none => .error (failure.getD (.api "every camouflaged route failed"))
  | .ok response :: rest =>
    if isSuccess response.status then .ok response
    else fetchLoop (if rejection.isNone ∨ response.status ≠ 403 then some response else rejection) failure rest
  | .error e :: rest => fetchLoop rejection (some e) rest

def Front.fetch (f : Front) : Except Failure ApiResponse :=
  if f.addresses = [] then .error (.api "no camouflaged route to the api was available")
  else fetchLoop none none f.exchanges

def fallbackCall (label : String) (f : Front) : Returns AccountData :=
  match f.fetch with
  | .error e => some (.error e.toError)
  | .ok response =>
    if isSuccess response.status then
      some ((libs.account response.body).mapError fun e =>
        .api (label ++ " decode over " ++ response.route ++ ": " ++ e ++ "; body=" ++ String.ofList response.body))
    else
      (describeStatus libs response.status response.body).map fun described =>
        let described := label ++ " over " ++ response.route ++ ": " ++ described
        if refusesIdentity response.status then .error (.identityRefused described)
        else .error (.api described)

end Camouflaged

structure Routes where
  direct : Nat → Sent
  front : Front

-- Over both routes, where the error names both.
def callBoth (label : String) (r : Routes) : Returns AccountData :=
  (sendWithRetry libs label r.direct).bind fun
    | .ok account => some (.ok account)
    | .error primary => (fallbackCall libs label r.front).map fun
      | .ok account => .ok account
      | .error secondary => .error (.api (label ++ ": direct route -> " ++ primary.display ++
          "; camouflaged route -> " ++ secondary.display))

def register (r : Routes) : Returns AccountData :=
  callBoth libs "registration" r

def registerWithTeam (r : Routes) : Returns AccountData :=
  callBoth libs "team registration" r

def enrollKey (r : Routes) : Returns AccountData :=
  callBoth libs "key enrollment" r

-- Here the error is that of the second route.
def fetchDevice (r : Routes) : Returns AccountData :=
  (sendWithRetry libs "device refresh" r.direct).bind fun
    | .ok account => some (.ok account)
    | .error _ => fallbackCall libs "device refresh" r.front

end Engine.Account
