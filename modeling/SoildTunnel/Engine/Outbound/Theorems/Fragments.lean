import SoildTunnel.Engine.Outbound.Theorems.Reassembly
import SoildTunnel.Rust.Utf8

-- A datagram that is sent in frames comes out as it went in.
namespace Engine.Outbound

open Rust List Nat

def UdpTarget.peer : UdpTarget → PeerAddr
  | .ip addr => .ip addr
  | .name host port => .name host port

section Address

theorem decodeAddress_v4 (ip : Ipv4Addr) (port : UInt16) (rest : Bytes) :
    decodeAddress (ADDR_V4 :: ip.toList ++ Octets.toBytes16 port ++ rest) = .ok (.ip ⟨.v4 ip, port⟩, 7) := by
  rcases ip with ⟨⟨l⟩, hl⟩
  match l, hl with
  | [a, b, c, d], _ =>
    simp only [Vector.toList_mk, Octets.toBytes16, cons_append, nil_append, decodeAddress]
    rw [if_neg (by decide), if_pos trivial, u16_toBytes16]
    rfl

theorem decodeAddress_v6 (ip : Ipv6Addr) (port : UInt16) (rest : Bytes) :
    decodeAddress (ADDR_V6 :: ip.toList ++ Octets.toBytes16 port ++ rest) = .ok (.ip ⟨.v6 ip, port⟩, 19) := by
  have hl : 18 ≤ (ip.toList ++ Octets.toBytes16 port ++ rest).length := by
    simp only [Octets.toBytes16, length_append, length_cons, length_nil, Vector.length_toList]
    omega
  have hip : (Vector.ofFn fun i : Fin 16 => (ip.toList ++ Octets.toBytes16 port ++ rest).get (i.castLE (by omega))) = ip := by
    refine Vector.ext fun i hi => ?_
    simp
  have hport : u16 (ip.toList ++ Octets.toBytes16 port ++ rest)[16] (ip.toList ++ Octets.toBytes16 port ++ rest)[17] = port := by
    simp [Octets.toBytes16, getElem_append_right, u16_toBytes16]
  simp only [cons_append, decodeAddress]
  rw [if_neg (by decide), if_neg (by decide), if_pos trivial, dif_pos hl, hip, hport]

theorem decodeAddress_name (name : Text) (port : UInt16) (rest : Bytes) (h : (Text.utf8 name).length ≤ 255) :
    decodeAddress (ADDR_NAME :: (Text.utf8 name).length.toUInt8 :: Text.utf8 name ++ Octets.toBytes16 port ++ rest) =
      .ok (.name name port, 4 + (Text.utf8 name).length) := by
  have hn : (Text.utf8 name).length.toUInt8.toNat = (Text.utf8 name).length := mod_eq_of_lt (lt_succ_of_le h)
  simp only [cons_append, decodeAddress]
  rw [if_neg (by decide), if_neg (by decide), if_neg (by decide), if_pos trivial, hn, append_assoc, drop_left,
    take_left, Text.fromUtf8Lossy_utf8]
  simp only [Octets.toBytes16, cons_append, u16_toBytes16]

theorem decodeAddress_encodeTarget {target : UdpTarget} {address : Bytes} (h : encodeTarget target = .ok address)
    (rest : Bytes) : decodeAddress (address ++ rest) = .ok (target.peer, address.length) := by
  rcases target with ⟨ip | ip, port⟩ | ⟨host, port⟩
  case ip.v4 =>
    cases h
    rw [decodeAddress_v4]
    simp [UdpTarget.peer, Octets.toBytes16]
  case ip.v6 =>
    cases h
    rw [decodeAddress_v6]
    simp [UdpTarget.peer, Octets.toBytes16]
  case name =>
    simp only [encodeTarget] at h
    split at h
    case isTrue => cases h
    case isFalse hl =>
      cases h
      rw [decodeAddress_name _ _ _ (not_lt.mp hl)]
      simp [UdpTarget.peer, Octets.toBytes16]
      omega

end Address

def slices (payload : Bytes) (maxFirst maxRest : Nat) : (index left offset : Nat) → List Bytes
  | _, 0, _ => []
  | index, left + 1, offset =>
    let want := min (if index = 0 then maxFirst else maxRest) (payload.length - offset)
    (payload.drop offset).take want :: slices payload maxFirst maxRest (index + 1) left (offset + want)

section Slices

variable {payload : Bytes} {maxFirst maxRest : Nat}

theorem length_slices (index left offset : Nat) : (slices payload maxFirst maxRest index left offset).length = left := by
  induction left generalizing index offset
  case zero => rfl
  case succ left ih => rw [slices, length_cons, ih]

theorem fragments_eq (packet : UInt16) (total : Nat) (address : Bytes) (index left offset : Nat) :
    fragments packet total address payload maxFirst maxRest index left offset =
      (slices payload maxFirst maxRest index left offset).mapIdx fun i part =>
        buildPacket packet (index + i).toUInt8 total.toUInt8 (if index + i = 0 then address else [ADDR_NONE]) part := by
  induction left generalizing index offset
  case zero => rfl
  case succ left ih =>
    rw [fragments, slices, mapIdx_cons, ih]
    simp only [add_zero, add_assoc, add_comm 1]

theorem length_slice_le {index left offset i : Nat} {part : Bytes}
    (h : (slices payload maxFirst maxRest index left offset)[i]? = some part) :
    part.length ≤ if index + i = 0 then maxFirst else maxRest := by
  induction left generalizing index offset i
  case zero => cases h
  case succ left ih =>
    rw [slices] at h
    cases i
    case zero =>
      cases h
      rw [length_take, add_zero]
      omega
    case succ i =>
      have := ih (by simpa using h)
      rwa [add_assoc, add_comm 1 i] at this

theorem flatten_slices {index left offset : Nat} (hi : 0 < index) (h : payload.length ≤ offset + left * maxRest) :
    (slices payload maxFirst maxRest index left offset).flatten = payload.drop offset := by
  induction left generalizing index offset
  case zero =>
    rw [slices, flatten_nil, drop_eq_nil_of_le (by omega)]
  case succ left ih =>
    rw [slices, flatten_cons, if_neg (by omega), ih (by omega)]
    · rw [← drop_drop, take_append_drop]
    · rw [succ_mul] at h
      omega

theorem flatten_slices_zero {left : Nat} (h : payload.length ≤ maxFirst + left * maxRest) :
    (slices payload maxFirst maxRest 0 (left + 1) 0).flatten = payload := by
  rw [slices, flatten_cons, if_pos rfl, flatten_slices (by omega) (by omega), ← drop_drop, take_append_drop,
    drop_zero]

end Slices

def budget (writable : Option Nat) : Nat :=
  min (writable.getD MAX_DGRAM_PAYLOAD) MAX_DGRAM_PAYLOAD

structure Parcel.Carries (p : Parcel) (writable : Option Nat) (packet : UInt16) (target : UdpTarget) (payload : Bytes) : Prop where
  packet_eq : p.packet = packet
  peer_eq : p.peer = target.peer
  flatten_parts : p.parts.flatten = payload
  frames : sendUdp writable packet target payload = (List.range p.parts.length).map p.frame
  length_frame : ∀ i < p.parts.length, (p.frame i).length ≤ budget writable

section Send

variable {writable : Option Nat} {packet : UInt16} {target : UdpTarget} {payload address : Bytes}

theorem sendUdp_eq (ha : encodeTarget target = .ok address) (hb : PACKET_HEADER + address.length < budget writable) :
    sendUdp writable packet target payload =
      let maxFirst := budget writable - PACKET_HEADER - address.length
      let maxRest := budget writable - PACKET_HEADER - 1
      let total := 1 + (payload.length - maxFirst + maxRest - 1) / maxRest
      if payload.length ≤ maxFirst then [buildPacket packet 0 1 address payload]
      else if maxRest = 0 ∨ 255 < total then []
      else fragments packet total address payload maxFirst maxRest 0 total 0 := by
  have hm : min (writable.getD MAX_DGRAM_PAYLOAD) MAX_DGRAM_PAYLOAD = budget writable := rfl
  simp only [sendUdp, ha, hm, if_neg (not_le.mpr hb), gt_iff_lt, ite_or]

theorem carries_one (ha : encodeTarget target = .ok address) (hb : PACKET_HEADER + address.length < budget writable)
    (hl : payload.length ≤ budget writable - PACKET_HEADER - address.length) :
    ∃ p : Parcel, p.Carries writable packet target payload := by
  have hmax : budget writable ≤ 65535 := min_le_right ..
  let p : Parcel := {
    packet, address
    peer := target.peer
    parts := [payload]
    decode := decodeAddress_encodeTarget ha
    pos := zero_lt_one
    length_parts := le_of_ble_eq_true rfl
    length_part := by simp; omega }
  refine ⟨p, rfl, rfl, by simp [p], ?_, ?_⟩
  · rw [sendUdp_eq ha hb]
    exact if_pos hl
  · intro i hi
    obtain rfl : i = 0 := by simpa [p] using hi
    rw [Parcel.frame, length_buildPacket]
    simp only [p, if_true, getD_cons_zero]
    omega

theorem le_div_mul {a m : Nat} (h : 0 < m) : a ≤ (a + m - 1) / m * m := by
  have := div_add_mod (a + m - 1) m
  have := mod_lt (a + m - 1) h
  rw [mul_comm]
  omega

section Cut

variable {maxFirst maxRest extra : Nat} (packet : UInt16) (payload : Bytes) (ha : encodeTarget target = .ok address)
  (ht : extra < 255) (hf : maxFirst < 2 ^ 16) (hr : maxRest < 2 ^ 16)

def cut : Parcel where
  packet := packet
  address := address
  peer := target.peer
  parts := slices payload maxFirst maxRest 0 (1 + extra) 0
  decode := decodeAddress_encodeTarget ha
  pos := by rw [length_slices]; omega
  length_parts := by rw [length_slices]; omega
  length_part part hp := by
    obtain ⟨i, hi⟩ := mem_iff_getElem?.mp hp
    have := length_slice_le hi
    split at this <;> omega

theorem map_frame_cut :
    (List.range (cut packet payload ha ht hf hr).parts.length).map (cut packet payload ha ht hf hr).frame =
      fragments packet (1 + extra) address payload maxFirst maxRest 0 (1 + extra) 0 := by
  rw [fragments_eq]
  refine ext_getElem (by simp [cut]) fun i h₁ _ => ?_
  have hi : i < (cut packet payload ha ht hf hr).parts.length := by simpa using h₁
  simp only [getElem_mapIdx, getElem_map, getElem_range]
  rw [Parcel.frame, Parcel.getD_parts hi, Parcel.total]
  simp only [cut, length_slices, zero_add]

theorem length_frame_cut {i : Nat} (hi : i < (cut packet payload ha ht hf hr).parts.length) :
    ((cut packet payload ha ht hf hr).frame i).length ≤
      PACKET_HEADER + if i = 0 then address.length + maxFirst else 1 + maxRest := by
  have hp : (slices payload maxFirst maxRest 0 (1 + extra) 0)[i]? = some ((cut packet payload ha ht hf hr).parts.getD i []) := by
    rw [Parcel.getD_parts hi]
    exact List.getElem?_eq_getElem hi
  have hl := length_slice_le hp
  rw [zero_add] at hl
  rw [Parcel.frame, length_buildPacket]
  by_cases hz : i = 0
  case pos =>
    rw [if_pos hz] at hl ⊢
    rw [if_pos hz]
    change PACKET_HEADER + address.length + _ ≤ _
    omega
  case neg =>
    rw [if_neg hz] at hl ⊢
    rw [if_neg hz, length_singleton]
    omega

end Cut

theorem carries_many (ha : encodeTarget target = .ok address) (hb : PACKET_HEADER + address.length < budget writable)
    (hl : budget writable - PACKET_HEADER - address.length < payload.length)
    (hs : sendUdp writable packet target payload ≠ []) :
    ∃ p : Parcel, p.Carries writable packet target payload := by
  have hmax : budget writable ≤ 65535 := min_le_right ..
  have he : sendUdp writable packet target payload = _ := sendUdp_eq ha hb
  dsimp only at he
  generalize hf : budget writable - PACKET_HEADER - address.length = maxFirst at hl he
  generalize hr : budget writable - PACKET_HEADER - 1 = maxRest at he
  generalize hx : (payload.length - maxFirst + maxRest - 1) / maxRest = extra at he
  rw [if_neg (not_le.mpr hl)] at he
  split at he
  case isTrue => exact absurd he hs
  case isFalse hz =>
    obtain ⟨hz, ht⟩ := not_or.mp hz
    have hflat : (slices payload maxFirst maxRest 0 (1 + extra) 0).flatten = payload := by
      rw [add_comm]
      have := le_div_mul (a := payload.length - maxFirst) (pos_of_ne_zero hz)
      rw [hx] at this
      exact flatten_slices_zero (by omega)
    refine ⟨cut packet payload ha (by omega) (by omega) (by omega), rfl, rfl, hflat, he.trans (map_frame_cut ..).symm, ?_⟩
    intro i hi
    refine (length_frame_cut packet payload ha _ _ _ hi).trans ?_
    split <;> omega

theorem carries_of_sendUdp (hs : sendUdp writable packet target payload ≠ []) :
    ∃ p : Parcel, p.Carries writable packet target payload := by
  cases ha : encodeTarget target
  case error => exact absurd (by rw [sendUdp, ha]) hs
  case ok address =>
    by_cases hb : PACKET_HEADER + address.length < budget writable
    case neg =>
      refine absurd ?_ hs
      rw [sendUdp, ha]
      exact if_pos (not_lt.mp hb)
    case pos =>
      by_cases hl : payload.length ≤ budget writable - PACKET_HEADER - address.length
      case pos => exact carries_one ha hb hl
      case neg => exact carries_many ha hb (not_le.mp hl) hs

end Send

def FragmentTable.receiveAll (table : FragmentTable Unit) :
    List Bytes → Option (FragmentTable Unit × List (PeerAddr × Bytes))
  | [] => some (table, [])
  | frame :: frames => do
    let (table, joined) ← table.receive frame ()
    let (table, later) ← table.receiveAll frames
    return (table, joined.toList.map (fun j => (j.address, j.payload)) ++ later)

section Receive

variable {p : Parcel} {i j : Nat}

theorem Parcel.frame_inj (hi : i < p.parts.length) (hj : j < p.parts.length) (h : p.frame i = p.frame j) : i = j := by
  have h7 (k : Nat) : (p.frame k)[7]? = some k.toUInt8 := rfl
  have he : some i.toUInt8 = some j.toUInt8 := by rw [← h7 i, ← h7 j, h]
  rw [← Parcel.toNat_index hi, ← Parcel.toNat_index hj, Option.some.inj he]

-- All frames but one have been seen or are still to come, and that one comes last.
theorem Parcel.Seen.receiveAll {table : FragmentTable Unit} {seen : Finset Nat} {arrivals : List Bytes}
    (h : p.Seen () seen table) (hn : 1 < p.parts.length) (hi : i < p.parts.length) (hs : i ∉ seen)
    (ha : ∀ frame ∈ arrivals, ∃ j < p.parts.length, j ≠ i ∧ frame = p.frame j)
    (hc : ∀ j < p.parts.length, j ≠ i → j ∈ seen ∨ p.frame j ∈ arrivals) :
    table.receiveAll (arrivals ++ [p.frame i]) =
      some (Function.update table (ASSOC_ID, p.packet) none, [(p.peer, p.parts.flatten)]) := by
  induction arrivals generalizing table seen
  case nil =>
    have hall : insert i seen = Finset.range p.parts.length := by
      refine Finset.Subset.antisymm (Finset.insert_subset (Finset.mem_range.mpr hi) h.left) fun j hj => ?_
      by_cases hji : j = i
      case pos => exact hji ▸ Finset.mem_insert_self ..
      case neg => exact Finset.mem_insert_of_mem ((hc j (Finset.mem_range.mp hj) hji).resolve_right not_mem_nil)
    rw [nil_append, FragmentTable.receiveAll, h.receive_frame hn hi, if_pos hall]
    rfl
  case cons frame arrivals ih =>
    obtain ⟨j, hj, hji, rfl⟩ := ha frame mem_cons_self
    have hm : i ∉ insert j seen := by simp [Ne.symm hji, hs]
    have hall : insert j seen ≠ Finset.range p.parts.length := fun he => hm (he ▸ Finset.mem_range.mpr hi)
    have hnext : p.Seen () (insert j seen)
        (Function.update table (ASSOC_ID, p.packet) (some (p.box () (insert j seen)))) :=
      ⟨Finset.insert_subset (Finset.mem_range.mpr hj) h.left, by rw [Function.update_self, Option.getD_some]⟩
    rw [cons_append, FragmentTable.receiveAll, h.receive_frame hn hj, if_neg hall, Option.bind_eq_bind, Option.bind_some]
    dsimp only
    rw [ih hnext hm (fun frame hf => ha frame (mem_cons_of_mem _ hf)), Function.update_idem]
    · rfl
    · intro k hk hki
      rcases hc k hk hki with hk' | hk'
      · exact .inl (Finset.mem_insert_of_mem hk')
      · rcases mem_cons.mp hk' with he | hk'
        · exact .inl (Parcel.frame_inj hk hj he ▸ Finset.mem_insert_self ..)
        · exact .inr hk'

theorem Parcel.receiveAll {table : FragmentTable Unit} {arrivals : List Bytes} {last : Bytes}
    (ht : table (ASSOC_ID, p.packet) = none)
    (ha : ∀ frame, frame ∈ arrivals ++ [last] ↔ frame ∈ (List.range p.parts.length).map p.frame) (hl : last ∉ arrivals) :
    table.receiveAll (arrivals ++ [last]) = some (table, [(p.peer, p.parts.flatten)]) := by
  have hmem (frame : Bytes) : frame ∈ arrivals ++ [last] ↔ ∃ i < p.parts.length, p.frame i = frame := by
    simp only [ha, mem_map, mem_range]
  obtain ⟨i, hi, rfl⟩ := (hmem last).mp (by simp)
  have hother : ∀ frame ∈ arrivals, ∃ j < p.parts.length, j ≠ i ∧ frame = p.frame j := by
    intro frame hf
    obtain ⟨j, hj, rfl⟩ := (hmem frame).mp (mem_append_left _ hf)
    exact ⟨j, hj, fun he => hl (he ▸ hf), rfl⟩
  by_cases hn : p.parts.length = 1
  case pos =>
    obtain rfl : arrivals = [] := by
      refine eq_nil_iff_forall_not_mem.mpr fun frame hf => ?_
      obtain ⟨j, hj, hji, -⟩ := hother frame hf
      omega
    obtain rfl : i = 0 := by omega
    rw [nil_append, FragmentTable.receiveAll, Parcel.receive_frame_one hn]
    rfl
  case neg =>
    have hpos := p.pos
    rw [(Parcel.seen_of_none ht).receiveAll (by omega) hi (Finset.notMem_empty i) hother, Function.update_eq_self_iff.mpr ht.symm]
    intro j hj hji
    have hm := (hmem (p.frame j)).mpr ⟨j, hj, rfl⟩
    refine .inr ((mem_append.mp hm).resolve_right fun h => hji ?_)
    exact Parcel.frame_inj hj hi (mem_singleton.mp h)

end Receive

-- The frames are as short as they have to be, and in whichever order they come, a receiver that had
-- none of them has the datagram once it has them all.
theorem receiveAll_sendUdp (writable : Option Nat) (packet : UInt16) (target : UdpTarget) (payload : Bytes)
    (table : FragmentTable Unit) (hs : sendUdp writable packet target payload ≠ [])
    (ht : table (ASSOC_ID, packet) = none) :
    (∀ frame ∈ sendUdp writable packet target payload, frame.length ≤ budget writable) ∧
      ∀ (arrivals : List Bytes) (last : Bytes),
        (∀ frame, frame ∈ arrivals ++ [last] ↔ frame ∈ sendUdp writable packet target payload) → last ∉ arrivals →
          table.receiveAll (arrivals ++ [last]) = some (table, [(target.peer, payload)]) := by
  obtain ⟨p, rfl, hpeer, rfl, hf, hlen⟩ := carries_of_sendUdp hs
  refine ⟨?_, fun arrivals last ha hl => ?_⟩
  case refine_1 =>
    intro frame hm
    rw [hf] at hm
    obtain ⟨i, hi, rfl⟩ := mem_map.mp hm
    exact hlen i (mem_range.mp hi)
  case refine_2 =>
    rw [← hpeer]
    exact Parcel.receiveAll ht (hf ▸ ha) hl

-- Five bytes in two frames, the second of which comes twice, before the first.
theorem receiveAll_sendUdp_five : FragmentTable.empty.receiveAll
      [buildPacket 7 1 2 [ADDR_NONE] [4, 5], buildPacket 7 1 2 [ADDR_NONE] [4, 5],
        buildPacket 7 0 2 [ADDR_V4, 9, 9, 9, 9, 0, 53] [1, 2, 3]] =
      some (.empty, [(.ip Session.server, [1, 2, 3, 4, 5])]) := by
  have hs : sendUdp (some 20) 7 (.ip Session.server) [1, 2, 3, 4, 5] =
      [buildPacket 7 0 2 [ADDR_V4, 9, 9, 9, 9, 0, 53] [1, 2, 3], buildPacket 7 1 2 [ADDR_NONE] [4, 5]] := by decide
  refine (receiveAll_sendUdp (some 20) 7 (.ip Session.server) [1, 2, 3, 4, 5] .empty (by rw [hs]; simp) rfl).right
    [buildPacket 7 1 2 [ADDR_NONE] [4, 5], buildPacket 7 1 2 [ADDR_NONE] [4, 5]] _ (fun frame => ?_) (by decide)
  rw [hs]
  simp only [mem_append, mem_cons, not_mem_nil, or_false, or_self]
  exact or_comm

end Engine.Outbound
