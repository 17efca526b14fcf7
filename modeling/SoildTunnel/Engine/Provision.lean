import SoildTunnel.Engine.Account
import SoildTunnel.Engine.ZeroTrust

-- Where the identity of a process comes from: the file that keeps one, or a registration.
namespace Engine.Provision

open Rust Files Account

structure Identity extends Config.Identity where
  refused : Bool := false

structure Base64 where
  decode : Text → Except String Bytes

section Load

variable (toml : Config.Toml) (base64 : Base64)

def decodeFixed (n : Nat) (field : String) (value : Text) : Except Error (Vector UInt8 n) :=
  match base64.decode value with
  | .error e => .error (.other ("config field " ++ field ++ " is not valid base64: " ++ e))
  | .ok decoded =>
    if h : decoded.toArray.size = n then .ok ⟨decoded.toArray, h⟩
    else .error (.other ("config field " ++ field ++ " must decode to " ++ toString n ++ " bytes, found " ++
      toString decoded.length))

-- A client id that cannot be read is taken for zeros.
def Identity.tryFrom (p : Config.PersistedIdentity) : Except Error Identity := do
  let wgPrivateKey ← decodeFixed base64 32 "wg_private_key" p.wgPrivateKey
  let wgPeerPublicKey ← decodeFixed base64 32 "wg_peer_public_key" p.wgPeerPublicKey
  let clientId :=
    if p.clientId = [] then .replicate 3 0
    else ((decodeFixed base64 3 "client_id" p.clientId).toOption).getD (.replicate 3 0)
  return {
    deviceId := p.deviceId
    accessToken := p.accessToken
    certPem := p.certPem.utf8
    keyPem := p.keyPem.utf8
    certIssuedAt := p.certIssuedAt
    ipv4 := p.ipv4
    ipv6 := p.ipv6
    wgPrivateKey, wgPeerPublicKey, clientId
    organization := p.organization
    gatewayProxy := p.gatewayProxy
    assignedEndpoint := p.assignedEndpoint
    refused := false }

-- What `load` finds. A damaged file it moves away before it fails.
inductive Loaded
  | absent
  | unreadable (e : Error)
  | damaged (e : String)
  | identity (identity : Identity)

def load : Option Bytes → Loaded
  | none => .absent
  | some bytes =>
    match Text.fromUtf8 bytes with
    | none => .unreadable (.io "stream did not contain valid UTF-8")
    | some text =>
      match toml.fromStr text with
      | .error e => .damaged ("config parse: " ++ e)
      | .ok persisted =>
        match Identity.tryFrom base64 persisted with
        | .error e => .damaged e.display
        | .ok identity => .identity identity

end Load

section Profile

variable (libs : Libs)

def endpointFrom (reg : AccountData) : Text :=
  let raw := (reg.peers.head?.map fun peer => peer.endpointV4.trim).getD []
  match Delimited.rcut ':' raw with
  | some (host, _) => if host ≠ [] then host else raw
  | none => raw

def orElse (assigned saved : Text) : Text :=
  if assigned = [] then saved else assigned

-- Only a refusal counts; any other failure leaves the profile as it is.
def refreshProfile (routes : Routes) (identity : Identity) : Option Identity :=
  (fetchDevice libs routes).map fun
    | .error (.identityRefused _) => { identity with refused := true }
    | .error _ => identity
    | .ok reg => { identity with
        ipv4 := orElse reg.addressV4.trim identity.ipv4
        ipv6 := orElse reg.addressV6.trim identity.ipv6
        organization := reg.organization.trim
        gatewayProxy := reg.httpProxy.trim
        assignedEndpoint := endpointFrom reg
        refused := false }

-- Members of an organisation only.
def adoptTeamProfile (team : Bool) (routes : Routes) (identity : Identity) : Option Identity :=
  if team then refreshProfile libs routes identity else some identity

end Profile

section Register

variable (libs : Libs) (base64 : Base64)

def extractWgPeer (reg : AccountData) : Except Error (Vector UInt8 32) :=
  match reg.peers with
  | [] => .error (.api "no peers in registration response")
  | peer :: _ =>
    match base64.decode peer.publicKey with
    | .error e => .error (.api ("decode peer pubkey: " ++ e))
    | .ok decoded =>
      if h : decoded.toArray.size = 32 then .ok ⟨decoded.toArray, h⟩
      else .error (.api "invalid peer pubkey length")

def clientIdOf (reg : AccountData) : Vector UInt8 3 :=
  match base64.decode reg.clientId with
  | .error _ => .replicate 3 0
  | .ok decoded => if h : decoded.toArray.size = 3 then ⟨decoded.toArray, h⟩ else .replicate 3 0

def finishProvision (reg : AccountData) (wgPrivate : Vector UInt8 32) : Except Error Identity :=
  if reg.token = [] then .error (.api "registration returned empty token")
  else (extractWgPeer base64 reg).map fun wgPeerPublic => {
    deviceId := reg.id
    accessToken := reg.token
    certPem := []
    keyPem := []
    certIssuedAt := 0
    ipv4 := reg.addressV4
    ipv6 := reg.addressV6
    wgPrivateKey := wgPrivate
    wgPeerPublicKey := wgPeerPublic
    clientId := if reg.clientId = [] then .replicate 3 0 else clientIdOf base64 reg
    organization := reg.organization.trim
    gatewayProxy := reg.httpProxy.trim
    assignedEndpoint := endpointFrom reg
    refused := false }

structure Registering where
  token : Except Error Text
  routes : Routes
  wgPrivateKey : Vector UInt8 32
  refresh : Routes

def finish (registered : Returns AccountData) (wgPrivate : Vector UInt8 32) : Returns Identity :=
  registered.map fun
    | .error e => .error e
    | .ok reg => finishProvision base64 reg wgPrivate

def provisionTeam (r : Registering) : Returns Identity :=
  match r.token with
  | .error e => some (.error e)
  | .ok _ => finish base64 (registerWithTeam libs r.routes) r.wgPrivateKey

def provisionWg (r : Registering) : Returns Identity :=
  finish base64 (register libs r.routes) r.wgPrivateKey

def provisionAccount (team : Bool) (r : Registering) : Returns Identity :=
  if team then
    (provisionTeam libs base64 r).bind fun
      | .error e => some (.error e)
      | .ok identity => (refreshProfile libs r.refresh identity).map .ok
  else
    provisionWg libs base64 r

end Register

section Enroll

variable (libs : Libs)

def MASQUE_CERT_LIFETIME_SECS : Nat := 365 * 86400

def MASQUE_CERT_RENEW_BEFORE_SECS : Nat := 7 * 86400

def masqueCertExpiring (issuedAt : UInt64) (now : Nat) : Bool :=
  issuedAt = 0 || now < issuedAt.toNat ||
    MASQUE_CERT_LIFETIME_SECS ≤ now - issuedAt.toNat + MASQUE_CERT_RENEW_BEFORE_SECS

def Identity.usable (identity : Identity) : Bool :=
  identity.certPem ≠ [] ∧ identity.keyPem ≠ []

def Identity.hasMasqueCredentials (identity : Identity) (now : Nat) : Bool :=
  identity.usable && !masqueCertExpiring identity.certIssuedAt now

def certStillUsable (identity : Identity) (now : Nat) : Bool :=
  identity.usable && identity.certIssuedAt ≠ 0 && identity.certIssuedAt.toNat ≤ now &&
    now - identity.certIssuedAt.toNat < MASQUE_CERT_LIFETIME_SECS

structure MasqueKeyPair where
  keyPem : Text
  certPem : Text

structure Enrolling where
  keypair : Except Error MasqueKeyPair
  routes : Routes
  checkedAt : Nat
  failedAt : Nat
  enrolledAt : UInt64

def ensureMasqueEnrolled (e : Enrolling) (identity : Identity) : Returns Identity :=
  if identity.usable && !masqueCertExpiring identity.certIssuedAt e.checkedAt then some (.ok identity)
  else
    match e.keypair with
    | .error error => some (.error error)
    | .ok keypair => (enrollKey libs e.routes).map fun
      | .ok _ => .ok { identity with
          certPem := keypair.certPem.utf8
          keyPem := keypair.keyPem.utf8
          certIssuedAt := e.enrolledAt }
      | .error error => if certStillUsable identity e.failedAt then .ok identity else .error error

end Enroll

inductive Plan
  | panicked
  | fail (e : Error)
  | setAside (e : String)
  | keep (identity : Identity)
  | save (identity : Identity)

def Plan.after (returned : Returns Identity) (next : Identity → Plan) : Plan :=
  match returned with
  | none => .panicked
  | some (.error e) => .fail e
  | some (.ok identity) => next identity

-- `SOILDTUNNEL_REPROVISION`. The source calls it `keep_saved_identity`.
def keepSavedIdentity (reprovision : Option Text) : Bool :=
  reprovision ≠ some "0".toList ∧ reprovision ≠ some "off".toList ∧ reprovision ≠ some "false".toList

structure Setting where
  reprovision : Option Text
  team : Bool
  loadedAt : Nat
  adopt : Routes
  enroll : Enrolling
  register : Registering
  enrollFresh : Enrolling
  adoptFresh : Routes

variable (libs : Libs) (base64 : Base64) (s : Setting)

def adoptFresh (identity : Identity) : Plan :=
  match adoptTeamProfile libs s.team s.adoptFresh identity with
  | none => .panicked
  | some identity => .save identity

section Warp

def provisionWarp : Plan :=
  .after (provisionAccount libs base64 s.team s.register) (adoptFresh libs s)

def loadOrProvisionWarp : Loaded → Plan
  | .absent => provisionWarp libs base64 s
  | .unreadable e => .fail e
  | .damaged e => .setAside e
  | .identity saved =>
    match adoptTeamProfile libs s.team s.adopt saved with
    | none => .panicked
    | some identity =>
      if !identity.refused then .save identity
      else if !keepSavedIdentity s.reprovision then .keep identity
      else provisionWarp libs base64 s

end Warp

section Masque

def provisionMasque : Plan :=
  .after (provisionAccount libs base64 s.team s.register) fun identity =>
    .after (ensureMasqueEnrolled libs s.enrollFresh identity) (adoptFresh libs s)

def replaceMasque (refused : Identity) : Plan :=
  if !keepSavedIdentity s.reprovision then .keep refused else provisionMasque libs base64 s

def loadOrProvisionMasque : Loaded → Plan
  | .absent => provisionMasque libs base64 s
  | .unreadable e => .fail e
  | .damaged e => .setAside e
  | .identity saved =>
    if saved.hasMasqueCredentials s.loadedAt then
      match adoptTeamProfile libs s.team s.adopt saved with
      | none => .panicked
      | some identity => if !identity.refused then .save identity else replaceMasque libs base64 s identity
    else
      match ensureMasqueEnrolled libs s.enroll saved with
      | none => .panicked
      | some (.ok identity) => .save identity
      | some (.error (.identityRefused _)) => replaceMasque libs base64 s { saved with refused := true }
      | some (.error e) => .fail e

end Masque

def loadOrProvision : Transport → Loaded → Plan
  | .wireGuard => loadOrProvisionWarp libs base64 s
  | .masque => loadOrProvisionMasque libs base64 s

section Files

variable (toml : Config.Toml)

def configError : Config.Error → Error
  | .io e => .io e
  | .other text => .other text

def quarantinePath (path : Path) : Path :=
  path.setFileName (path.fileName.getD "soildtunnel.toml".toList ++ ".corrupt".toList)

abbrev Ended := Returns Identity × Fs Path

-- The events are those of the writing, if there is any. `setAside` takes one for the renaming; what
-- is said of the path in the error is left out.
def Plan.run (path : Path) (pid : Nat) (disk : Disk Path) (events : List Config.Event) : Plan → Option Ended
  | .panicked => some (none, disk.mount)
  | .fail e => some (some (.error e), disk.mount)
  | .keep identity => some (some (.ok identity), disk.mount)
  | .setAside e =>
    match events with
    | [.ok] => (disk.mount.rename path (quarantinePath path)).map (some (.error (.other e)), ·)
    | [.failed _] => some (some (.error (.other e)), disk.mount)
    | _ => none
  | .save identity => do
    let call ← Lts.exec (Config.Call.step toml path pid (.save identity.toIdentity))
      (.start toml path (.save identity.toIdentity) disk) events
    match ← call.pc.result with
    | .ok () => some (some (.ok identity), call.fs)
    | .error e => some (some (.error (configError e)), call.fs)

def runCall (transport : Transport) (path : Path) (pid : Nat) (disk : Disk Path) (events : List Config.Event) :
    Option Ended :=
  (loadOrProvision libs base64 s transport (load toml base64 (disk.read path))).run toml path pid disk events

end Files

end Engine.Provision
