import SoildTunnel.Engine.Net
import SoildTunnel.Lib.Incremental
import SoildTunnel.Lib.Octets

-- The capsules of the tunnel's control stream.
namespace Engine.Masque

open Octets (Rest getU8 getBytes getVarint)

-- The builds that are shipped; they differ in the width of a length.
inductive Abi
  | arm64
  | armv7
deriving DecidableEq

def Abi.usize : Abi → Nat → Nat
  | .arm64, n => n % 2 ^ 64
  | .armv7, n => n % 2 ^ 32

def Abi.width : Abi → Nat
  | .arm64 => 64
  | .armv7 => 32

theorem Abi.le_width (abi : Abi) : 32 ≤ abi.width := by
  cases abi <;> decide

structure AssignedAddress where
  requestId : Nat
  ipVersion : UInt8
  address : Bytes
  prefixLen : UInt8
deriving DecidableEq

structure RouteAdvertisement where
  ipVersion : UInt8
  start : Bytes
  stop : Bytes
  protocol : UInt8
deriving DecidableEq

inductive Capsule
  | addressAssign (addrs : List AssignedAddress)
  | addressRequest
  | datagram (payload : Bytes)
  | routeAdvertisement (routes : List RouteAdvertisement)
  | unknown (kind : Nat) (payload : Bytes)
deriving DecidableEq

def CAPSULE_DATAGRAM : Nat := 0x00
def CAPSULE_ADDRESS_ASSIGN : Nat := 0x01
def CAPSULE_ADDRESS_REQUEST : Nat := 0x02
def CAPSULE_ROUTE_ADVERTISEMENT : Nat := 0x03

def MAX_CAPSULE_BUF : Nat := 256 * 1024

def oct {α : Type} : Option α → Except String α
  | some a => .ok a
  | none => .error "BufferTooShortError"

def addrLen (ipVersion : UInt8) : Except String Nat :=
  if ipVersion = 4 then .ok 4
  else if ipVersion = 6 then .ok 16
  else .error s!"bad ip version {ipVersion}"

def assignedAddress (b : Bytes) : Except String (AssignedAddress × Rest b) := do
  let (requestId, b₁) ← oct (getVarint b)
  let (ipVersion, b₂) ← oct (getU8 b₁)
  let (address, b₃) ← oct (getBytes b₂ (← addrLen ipVersion))
  let (prefixLen, b₄) ← oct (getU8 b₃)
  return (⟨requestId, ipVersion, address, prefixLen⟩, ⟨b₄, by
    have := b₁.property; have := b₂.property; have := b₃.property; have := b₄.property; omega⟩)

def parseAddressAssign (value : Bytes) : Except String (List AssignedAddress) :=
  Octets.many assignedAddress value

def routeAdvertisement (b : Bytes) : Except String (RouteAdvertisement × Rest b) := do
  let (ipVersion, b₁) ← oct (getU8 b)
  let len ← addrLen ipVersion
  let (start, b₂) ← oct (getBytes b₁ len)
  let (stop, b₃) ← oct (getBytes b₂ len)
  let (protocol, b₄) ← oct (getU8 b₃)
  return (⟨ipVersion, start, stop, protocol⟩, ⟨b₄, by
    have := b₁.property; have := b₂.property; have := b₃.property; have := b₄.property; omega⟩)

def parseRouteAdvertisement (value : Bytes) : Except String (List RouteAdvertisement) :=
  Octets.many routeAdvertisement value

def capsule (kind : Nat) (value : Bytes) : Except String Capsule :=
  if kind = CAPSULE_ADDRESS_ASSIGN then .addressAssign <$> parseAddressAssign value
  else if kind = CAPSULE_ADDRESS_REQUEST then .ok .addressRequest
  else if kind = CAPSULE_ROUTE_ADVERTISEMENT then .routeAdvertisement <$> parseRouteAdvertisement value
  else if kind = CAPSULE_DATAGRAM then .ok (.datagram value)
  else .ok (.unknown kind value)

namespace CapsuleParser

-- The parser is its buffer; one that would grow too large is thrown away, with the new bytes.
def push (buf data : Bytes) : Bytes :=
  if buf.length + data.length > MAX_CAPSULE_BUF then [] else buf ++ data

-- `none` is `Ok(None)`: no capsule is complete and the buffer stays. A complete capsule leaves the
-- buffer whether or not its value can be read.
def next (abi : Abi) (buf : Bytes) : Option (Except String Capsule × Rest buf) := do
  let (kind, b₁) ← getVarint buf
  let (len, b₂) ← getVarint b₁
  let (value, b₃) ← getBytes b₂ (abi.usize len)
  return (capsule kind value, ⟨b₃, by
    have := b₁.property; have := b₂.property; have := b₃.property; omega⟩)

structure Call where
  drained : Bytes
  result : Except String Capsule
deriving DecidableEq

def call (abi : Abi) : Incremental.Taker UInt8 Call := fun buf =>
  (next abi buf).map fun (result, rest) => (⟨buf.take (buf.length - rest.val.length), result⟩, rest)

-- After each push `next` is called until it finds nothing, and errors do not stop this.
def feed (abi : Abi) (buf : Bytes) : List Bytes → List Call × Bytes
  | [] => ([], buf)
  | data :: chunks =>
    let (calls, buf) := Incremental.drain (call abi) (push buf data)
    let (later, buf) := feed abi buf chunks
    (calls ++ later, buf)

end CapsuleParser

def bytesToIp (version : UInt8) (bytes : Bytes) : Option IpAddr :=
  if h : version = 4 ∧ bytes.length = 4 then some (.v4 ⟨bytes.toArray, h.right⟩)
  else if h : version = 6 ∧ bytes.length = 16 then some (.v6 ⟨bytes.toArray, h.right⟩)
  else none

structure AssignedAddr where
  ip : IpAddr
  prefixLen : UInt8
deriving DecidableEq

def AssignedAddress.toAddr (a : AssignedAddress) : Option AssignedAddr :=
  (bytesToIp a.ipVersion a.address).map (⟨·, a.prefixLen⟩)

-- `drain_capsules` of the HTTP/3 client: the addresses in the order in which they are sent on, and
-- the buffer that is left. A capsule that cannot be read ends the loop.
def drainCapsules (abi : Abi) (buf : Bytes) : List AssignedAddr × Bytes :=
  match CapsuleParser.next abi buf with
  | none => ([], buf)
  | some (.error _, rest) => ([], rest)
  | some (.ok (.addressAssign addrs), rest) =>
    let (later, buf) := drainCapsules abi rest
    (addrs.filterMap AssignedAddress.toAddr ++ later, buf)
  | some (.ok _, rest) => drainCapsules abi rest
termination_by buf.length
decreasing_by all_goals exact rest.property

end Engine.Masque
