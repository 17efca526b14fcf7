import SoildTunnel.Engine.Masque
import SoildTunnel.Lib.Varint

-- IP packets in QUIC datagrams and in capsules.
namespace Engine.Masque

open Octets (Writer getVarint putVarint)

def CONNECT_IP_CONTEXT_ID : Nat := 0

def quarterStreamId (streamId : UInt64) : Nat :=
  streamId.toNat / 4

-- The size of a buffer is reckoned with a function of its own.
def varintLen (v : Nat) : Nat :=
  if v < 64 then 1
  else if v < 16384 then 2
  else if v < 1073741824 then 4
  else 8

def encodeIpDatagram (streamId : UInt64) (ipPacket : Bytes) : Except String Bytes := do
  let qsid := quarterStreamId streamId
  let ctx := CONNECT_IP_CONTEXT_ID
  let b : Writer := { cap := varintLen qsid + varintLen ctx + ipPacket.length }
  let b ← oct (b.put (putVarint qsid))
  let b ← oct (b.put (putVarint ctx))
  let b ← oct (b.put ipPacket)
  return b.out

-- `none` is a datagram of another stream or another context.
def decodeIpDatagram (datagram : Bytes) (expectStreamId : UInt64) : Except String (Option Bytes) := do
  let (qsid, b) ← oct (getVarint datagram)
  if qsid ≠ quarterStreamId expectStreamId then
    return none
  let (ctx, payload) ← oct (getVarint b.val)
  if ctx ≠ CONNECT_IP_CONTEXT_ID then
    return none
  return some payload.val

-- Whether there is room is not looked at.
def putOrSkip (b : Writer) (bytes : Bytes) : Writer :=
  (b.put bytes).getD b

def encodeCapsule (kind : Nat) (value : Bytes) : Bytes :=
  let b : Writer := { cap := varintLen kind + varintLen value.length + value.length }
  let b := putOrSkip b (putVarint kind)
  let b := putOrSkip b (putVarint value.length)
  let b := putOrSkip b value
  b.out

def encodeDatagramCapsule (ipPacket : Bytes) : Bytes :=
  encodeCapsule CAPSULE_DATAGRAM ipPacket

def looksLikeIpPacket (data : Bytes) : Bool :=
  match data with
  | [] => false
  | first :: _ => (first >>> 4 = 4 || first >>> 4 = 6) && 20 ≤ data.length

-- The context id, which is a guess, and the packet.
def stripContextId (payload : Bytes) : Option Bytes :=
  match getVarint payload with
  | some (ctx, inner) => if ctx = CONNECT_IP_CONTEXT_ID && looksLikeIpPacket inner.val then some inner.val else none
  | none => none

def stripDatagramContext (payload : Bytes) : Option Bytes :=
  if payload = [] then none
  else
    match stripContextId payload with
    | some inner => some inner
    | none => if looksLikeIpPacket payload then some payload else none

inductive TrySend
  | ok
  | full
  | closed
deriving DecidableEq

structure Drained where
  packets : List Bytes := []
  addrs : List AssignedAddr := []
  buf : Bytes

-- `drain_capsules` of the HTTP/2 client, where packets come in capsules too. Here as well a capsule
-- that cannot be read ends the loop.
def drainCapsulesH2 (abi : Abi) (inboundTx : Nat → TrySend) (n : Nat) (buf : Bytes) : Drained :=
  match CapsuleParser.next abi buf with
  | none => { buf }
  | some (.error _, rest) => { buf := rest }
  | some (.ok (.datagram payload), rest) =>
    match stripDatagramContext payload with
    | none => drainCapsulesH2 abi inboundTx n rest
    | some pkt =>
      match inboundTx n with
      | .ok =>
        let later := drainCapsulesH2 abi inboundTx (n + 1) rest
        { later with packets := pkt :: later.packets }
      | .full => drainCapsulesH2 abi inboundTx (n + 1) rest
      | .closed => { buf := rest }
  | some (.ok (.addressAssign addrs), rest) =>
    let later := drainCapsulesH2 abi inboundTx n rest
    { later with addrs := addrs.filterMap AssignedAddress.toAddr ++ later.addrs }
  | some (.ok _, rest) => drainCapsulesH2 abi inboundTx n rest
termination_by buf.length
decreasing_by all_goals exact rest.property

end Engine.Masque
