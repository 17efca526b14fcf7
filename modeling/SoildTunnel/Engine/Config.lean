import SoildTunnel.Engine.Net
import SoildTunnel.Lib.Files
import SoildTunnel.Lib.Lts
import SoildTunnel.Rust.Path

-- The file that keeps an identity.
namespace Engine.Config

open Rust Files

structure Identity where
  deviceId : Text
  accessToken : Text
  certPem : Bytes
  keyPem : Bytes
  certIssuedAt : UInt64
  ipv4 : Text
  ipv6 : Text
  wgPrivateKey : Vector UInt8 32
  wgPeerPublicKey : Vector UInt8 32
  clientId : Vector UInt8 3
  organization : Text
  gatewayProxy : Text
  assignedEndpoint : Text

structure PersistedIdentity where
  deviceId : Text
  accessToken : Text
  certPem : Text
  keyPem : Text
  certIssuedAt : UInt64
  ipv4 : Text
  ipv6 : Text
  wgPrivateKey : Text
  wgPeerPublicKey : Text
  clientId : Text
  organization : Text
  gatewayProxy : Text
  assignedEndpoint : Text

def base64Digit (n : Nat) : Char :=
  if n < 26 then Char.ofNat (n + 65)
  else if n < 52 then Char.ofNat (n + 71)
  else if n < 62 then Char.ofNat (n - 4)
  else if n = 62 then '+'
  else '/'

def encodeBase64 : Bytes → Text
  | [] => []
  | [a] => [base64Digit (a.toNat / 4), base64Digit (a.toNat % 4 * 16), '=', '=']
  | [a, b] =>
    [base64Digit (a.toNat / 4), base64Digit (a.toNat % 4 * 16 + b.toNat / 16),
      base64Digit (b.toNat % 16 * 4), '=']
  | a :: b :: c :: rest =>
    base64Digit (a.toNat / 4) :: base64Digit (a.toNat % 4 * 16 + b.toNat / 16) ::
      base64Digit (b.toNat % 16 * 4 + c.toNat / 64) :: base64Digit (c.toNat % 64) :: encodeBase64 rest

def PersistedIdentity.fromIdentity (id : Identity) : PersistedIdentity where
  deviceId := id.deviceId
  accessToken := id.accessToken
  certPem := Text.fromUtf8Lossy id.certPem
  keyPem := Text.fromUtf8Lossy id.keyPem
  certIssuedAt := id.certIssuedAt
  ipv4 := id.ipv4
  ipv6 := id.ipv6
  wgPrivateKey := encodeBase64 id.wgPrivateKey.toList
  wgPeerPublicKey := encodeBase64 id.wgPeerPublicKey.toList
  clientId := encodeBase64 id.clientId.toList
  organization := id.organization
  gatewayProxy := id.gatewayProxy
  assignedEndpoint := id.assignedEndpoint

structure Toml where
  toStringPretty : PersistedIdentity → Except String Text
  fromStr : Text → Except String PersistedIdentity

inductive Error
  | io (e : String)
  | other (text : String)
deriving DecidableEq

def temporary (path : Path) (pid : Nat) : Path :=
  let name := path.fileName.getD "soildtunnel.toml".toList
  path.setFileName ('.' :: (name ++ '.' :: (toString pid).toList ++ ".tmp".toList))

-- What the operation of a step comes to. A call to write some bytes may take fewer of them.
inductive Event
  | ok
  | failed (e : String)
  | wrote (n : Nat)
deriving DecidableEq

structure Fd where
  file : Nat
  offset : Nat
deriving DecidableEq

inductive Stage
  | createDirAll
  | openTemporary
  | writeAll (fd : Fd) (rest : Bytes)
  | flush (fd : Fd)
  | syncAll (fd : Fd)
  | setPermissions
  | rename
  | removeTemporary (e : Error)
  | returned (result : Except Error Unit)
deriving DecidableEq

namespace Stage

def start (path : Path) : Stage :=
  if (path.parent.filter (· ≠ [])).isSome then .createDirAll else .openTemporary

def fd : Stage → Option Fd
  | .writeAll fd _ => some fd
  | .flush fd => some fd
  | .syncAll fd => some fd
  | _ => none

-- A failure before the temporary file is opened is returned as it is; one after that first removes
-- the file, and whether this succeeds does not matter.
def step (path : Path) (pid : Nat) (contents : Bytes) (fs : Fs Path) : Stage → Event → Option (Fs Path × Stage)
  | .createDirAll, .ok => some (fs, .openTemporary)
  | .createDirAll, .failed e => some (fs, .returned (.error (.io e)))
  | .openTemporary, .ok =>
    let (fs, i) := fs.openTruncate (temporary path pid)
    some (fs, .writeAll ⟨i, 0⟩ contents)
  | .openTemporary, .failed e => some (fs, .removeTemporary (.io e))
  | .writeAll fd [], .ok => some (fs, .flush fd)
  | .writeAll fd (x :: rest), .wrote n =>
    if n = 0 then some (fs, .removeTemporary (.io "failed to write whole buffer"))
    else if n ≤ (x :: rest).length then
      some (fs.writeAt fd.file fd.offset ((x :: rest).take n), .writeAll ⟨fd.file, fd.offset + n⟩ ((x :: rest).drop n))
    else none
  | .writeAll _ (_ :: _), .failed e => some (fs, .removeTemporary (.io e))
  | .flush fd, .ok => some (fs, .syncAll fd)
  | .flush _, .failed e => some (fs, .removeTemporary (.io e))
  | .syncAll fd, .ok => some (fs.sync fd.file, .setPermissions)
  | .syncAll _, .failed e => some (fs, .removeTemporary (.io e))
  | .setPermissions, .ok => if (fs.names.file (temporary path pid)).isSome then some (fs, .rename) else none
  | .setPermissions, .failed e => some (fs, .removeTemporary (.io e))
  | .rename, .ok => (fs.rename (temporary path pid) path).map (·, .returned (.ok ()))
  | .rename, .failed e => some (fs, .removeTemporary (.io e))
  | .removeTemporary e, .ok => some (fs.remove (temporary path pid), .returned (.error e))
  | .removeTemporary e, .failed _ => some (fs, .returned (.error e))
  | _, _ => none

end Stage

variable (toml : Toml)

def encode (persisted : PersistedIdentity) : Except Error Text :=
  (toml.toStringPretty persisted).mapError fun e => .other ("config encode: " ++ e)

def withMasqueCreds (certPem keyPem : Bytes) (issuedAt : UInt64) (bytes : Bytes) : Except Error Text :=
  match Text.fromUtf8 bytes with
  | none => .error (.io "stream did not contain valid UTF-8")
  | some text =>
    match toml.fromStr text with
    | .error e => .error (.other ("config parse: " ++ e))
    | .ok persisted =>
      encode toml { persisted with
        certPem := Text.fromUtf8Lossy certPem
        keyPem := Text.fromUtf8Lossy keyPem
        certIssuedAt := issuedAt }

inductive Job
  | save (identity : Identity)
  | saveMasqueCreds (certPem keyPem : Bytes) (issuedAt : UInt64)

inductive Pc
  | checkExists
  | readToString
  | writing (text : Text) (stage : Stage)
  | failed (e : Error)
  | absent
deriving DecidableEq

namespace Pc

def writePrivate (path : Path) : Except Error Text → Pc
  | .ok text => .writing text (.start path)
  | .error e => .failed e

def start (path : Path) : Job → Pc
  | .save identity => writePrivate path (encode toml (.fromIdentity identity))
  | .saveMasqueCreds _ _ _ => .checkExists

def result : Pc → Option (Except Error Unit)
  | .writing _ (.returned result) => some result
  | .failed e => some (.error e)
  | .absent => some (.ok ())
  | _ => none

-- `exists` takes a failure for the absence of the file.
def step (path : Path) (pid : Nat) (job : Job) (fs : Fs Path) : Pc → Event → Option (Fs Path × Pc)
  | .checkExists, .ok => some (fs, if (fs.read path).isSome then .readToString else .absent)
  | .checkExists, .failed _ => some (fs, .absent)
  | .readToString, .ok =>
    match fs.read path, job with
    | some bytes, .saveMasqueCreds certPem keyPem issuedAt =>
      some (fs, writePrivate path (withMasqueCreds toml certPem keyPem issuedAt bytes))
    | _, _ => none
  | .readToString, .failed e => some (fs, .failed (.io e))
  | .writing text stage, event =>
    (stage.step path pid text.utf8 fs event).map fun (fs, stage) => (fs, .writing text stage)
  | _, _ => none

end Pc

structure Call where
  fs : Fs Path
  pc : Pc

def Call.start (path : Path) (job : Job) (disk : Disk Path) : Call where
  fs := disk.mount
  pc := .start toml path job

def Call.step (path : Path) (pid : Nat) (job : Job) (c : Call) (event : Event) : Option Call :=
  (c.pc.step toml path pid job c.fs event).map fun (fs, pc) => ⟨fs, pc⟩

structure Saves where
  fs : Fs Path
  pcs : List Pc

def Saves.start (path : Path) (identities : List Identity) (disk : Disk Path) : Saves where
  fs := disk.mount
  pcs := identities.map fun identity => .start toml path (.save identity)

def Saves.step (path : Path) (pid : Nat) (identities : List Identity) (s : Saves) : Nat × Event → Option Saves
  | (i, event) => do
    let pc ← s.pcs[i]?
    let identity ← identities[i]?
    let (fs, pc) ← pc.step toml path pid (.save identity) s.fs event
    return ⟨fs, s.pcs.set i pc⟩

end Engine.Config
