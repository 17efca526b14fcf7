import SoildTunnel.Engine.Outbound.Udp

-- The loop that takes datagrams off a TUIC connection, with every slice and index that it makes.
-- `none` is a panic.
namespace Engine.Outbound

open Rust

namespace Pump

def slice (buf : Bytes) (lo hi : Nat) : Option Bytes :=
  if lo ≤ hi ∧ hi ≤ buf.length then some ((buf.take hi).drop lo) else none

-- `copy_from_slice` into an array of sixteen bytes.
def copyV6 (raw : Bytes) : Option Ipv6Addr :=
  if h : raw.length = 16 then some (.ofFn fun i => raw.get ⟨i, by omega⟩) else none

def decodeAddress (buf : Bytes) : Option (Except String (PeerAddr × Nat)) :=
  match buf.head? with
  | none => some (.error "tuic address truncated")
  | some kind =>
    if kind = ADDR_NONE then
      some (.ok (.none, 1))
    else if kind = ADDR_V4 then
      if buf.length < 7 then some (.error "tuic ipv4 address truncated")
      else do
        let ip := .new (← buf[1]?) (← buf[2]?) (← buf[3]?) (← buf[4]?)
        return .ok (.ip ⟨.v4 ip, u16 (← buf[5]?) (← buf[6]?)⟩, 7)
    else if kind = ADDR_V6 then
      if buf.length < 19 then some (.error "tuic ipv6 address truncated")
      else do
        let ip ← copyV6 (← slice buf 1 17)
        return .ok (.ip ⟨.v6 ip, u16 (← buf[17]?) (← buf[18]?)⟩, 19)
    else if kind = ADDR_NAME then
      match buf[1]? with
      | none => some (.error "tuic name address truncated")
      | some len =>
        if buf.length < 4 + len.toNat then some (.error "tuic name address truncated")
        else do
          let name ← slice buf 2 (2 + len.toNat)
          let port := u16 (← buf[2 + len.toNat]?) (← buf[3 + len.toNat]?)
          return .ok (.name (Text.fromUtf8Lossy name) port, 4 + len.toNat)
    else
      some (.error s!"unknown tuic address type {hex kind}")

def parsePacketHead (buf : Bytes) : Option (Except String PacketHead) :=
  if buf.length < PACKET_HEADER then some (.error "tuic packet header truncated")
  else do
    let version ← buf[0]?
    if version ≠ TUIC_VERSION then
      return .error s!"tuic version {version.toNat} is not supported"
    let cmd ← buf[1]?
    if cmd ≠ CMD_PACKET then
      return .error s!"unexpected tuic command {hex cmd}"
    let packet := u16 (← buf[4]?) (← buf[5]?)
    let total ← buf[6]?
    let index ← buf[7]?
    let size := (u16 (← buf[8]?) (← buf[9]?)).toNat
    let address ← decodeAddress (← slice buf PACKET_HEADER buf.length)
    return address.map fun (address, used) => ⟨packet, total, index, size, address, PACKET_HEADER + used⟩

def turn (table : FragmentTable Unit) (buffer : Bytes) (read : Nat) :
    Option (FragmentTable Unit × Option (Joined Unit)) :=
  if read < PACKET_HEADER then some (table, none)
  else do
    let cmd ← buffer[1]?
    if cmd ≠ CMD_PACKET then
      return (table, none)
    match ← parsePacketHead (← slice buffer 0 read) with
    | .error _ => return (table, none)
    | .ok head =>
      if read < head.consumed + head.size then
        return (table, none)
      let payload ← slice buffer head.consumed (head.consumed + head.size)
      if head.total ≤ 1 then
        return (table, some ⟨head.address, payload, [()]⟩)
      if head.total ≤ head.index then
        return (table, none)
      table.fragment head payload ()

end Pump

structure Pump where
  fragments : FragmentTable Unit := .empty
  panicked : Bool := false

-- `stale` is what earlier datagrams have left in the rest of the buffer.
inductive PumpLabel
  | openUdp
  | datagram (data stale : Bytes)

namespace Pump

def resume (s : Pump) : Option (FragmentTable Unit × Option (Joined Unit)) → Pump
  | some (fragments, _) => { s with fragments }
  | none => { s with panicked := true }

def step (s : Pump) : PumpLabel → Option Pump
  | .openUdp => if s.panicked then none else some { s with fragments := .empty }
  | .datagram data stale =>
    if s.panicked ∨ (data ++ stale).length ≠ MAX_DGRAM_PAYLOAD then none
    else some (s.resume (turn s.fragments (data ++ stale) data.length))

end Pump

end Engine.Outbound
