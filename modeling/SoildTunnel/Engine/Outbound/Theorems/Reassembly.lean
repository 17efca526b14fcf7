import SoildTunnel.Engine.Outbound.Theorems.Pump

-- The frames of a packet, and the box in which its parts are collected.
namespace Engine.Outbound

open Rust List Option

section Packet

variable {packet : UInt16} {index total : UInt8} {address payload : Bytes} {peer : PeerAddr}

def headOf (packet : UInt16) (index total : UInt8) (address : Bytes) (peer : PeerAddr) (payload : Bytes) : PacketHead where
  packet := packet
  total := total
  index := index
  size := payload.length
  address := peer
  consumed := PACKET_HEADER + address.length

theorem parsePacketHead_buildPacket (ha : ∀ rest, decodeAddress (address ++ rest) = .ok (peer, address.length))
    (hl : payload.length < 2 ^ 16) :
    parsePacketHead (buildPacket packet index total address payload) = .ok (headOf packet index total address peer payload) := by
  have hs : payload.length.toUInt16.toNat = payload.length := Nat.mod_eq_of_lt hl
  simp only [buildPacket, Octets.toBytes16, cons_append, nil_append, parsePacketHead]
  rw [if_neg (not_not.mpr rfl), if_neg (not_not.mpr rfl), ha payload, u16_toBytes16, u16_toBytes16, hs]
  rfl

theorem length_buildPacket :
    (buildPacket packet index total address payload).length = PACKET_HEADER + address.length + payload.length := by
  simp only [buildPacket, Octets.toBytes16, length_append, length_cons, length_nil, PACKET_HEADER]

theorem drop_buildPacket :
    (buildPacket packet index total address payload).drop (PACKET_HEADER + address.length) = payload := by
  refine drop_left' ?_
  simp only [Octets.toBytes16, length_append, length_cons, length_nil, PACKET_HEADER]

namespace FragmentTable

variable {τ : Type} (table : FragmentTable τ) (mark : τ)

theorem receive_buildPacket (ha : ∀ rest, decodeAddress (address ++ rest) = .ok (peer, address.length))
    (hl : payload.length < 2 ^ 16) :
    table.receive (buildPacket packet index total address payload) mark =
      if total ≤ 1 then some (table, some ⟨peer, payload, [mark]⟩)
      else if total ≤ index then some (table, none)
      else table.fragment (headOf packet index total address peer payload) payload mark := by
  have hp : parsePacketHead (buildPacket packet index total address payload) = _ := parsePacketHead_buildPacket ha hl
  have ⟨hh, hc⟩ := Pump.of_parsePacketHead hp
  rw [receive, if_neg (not_or.mpr ⟨not_lt.mpr hh, not_not.mpr hc⟩), hp]
  simp only [headOf, drop_buildPacket, take_length, length_buildPacket, lt_self_iff_false, if_false]

end FragmentTable

end Packet

theorem FragmentBox.insert_eq {τ : Type} (box : FragmentBox τ) (head : PacketHead) (payload : Bytes) (mark : τ) :
    box.insert head payload mark =
      let address := if head.index = 0 then head.address else box.address
      box.parts[head.index.toNat]?.map fun
        | some _ => { box with address }
        | none => { box with
            address
            parts := box.parts.set head.index.toNat (some (payload, mark))
            filled := box.filled + 1 } := by
  unfold insert
  split <;> rfl

structure Parcel where
  packet : UInt16
  address : Bytes
  peer : PeerAddr
  parts : List Bytes
  decode : ∀ rest, decodeAddress (address ++ rest) = .ok (peer, address.length)
  pos : 0 < parts.length
  length_parts : parts.length ≤ 255
  length_part : ∀ part ∈ parts, part.length < 2 ^ 16

namespace Parcel

variable (p : Parcel) {τ : Type}

def total : UInt8 := p.parts.length.toUInt8

-- The address stands in the first frame only.
def frame (i : Nat) : Bytes :=
  buildPacket p.packet i.toUInt8 p.total (if i = 0 then p.address else [ADDR_NONE]) (p.parts.getD i [])

def box (mark : τ) (seen : Finset Nat) : FragmentBox τ where
  total := p.total
  parts := p.parts.mapIdx fun i part => if i ∈ seen then some (part, mark) else none
  filled := seen.card
  address := if 0 ∈ seen then p.peer else .none

def joined (mark : τ) : Joined τ where
  address := p.peer
  payload := p.parts.flatten
  marks := List.replicate p.parts.length mark

section Box

variable {p} {mark : τ} {seen : Finset Nat} {i : Nat}

theorem toNat_total : p.total.toNat = p.parts.length :=
  Nat.mod_eq_of_lt (Nat.lt_succ_of_le p.length_parts)

theorem toNat_index (hi : i < p.parts.length) : i.toUInt8.toNat = i :=
  Nat.mod_eq_of_lt (hi.trans (Nat.lt_succ_of_le p.length_parts))

theorem toUInt8_eq_zero (hi : i < p.parts.length) : i.toUInt8 = 0 ↔ i = 0 := by
  rw [← UInt8.toNat_inj, toNat_index hi]
  rfl

theorem getD_parts (hi : i < p.parts.length) : p.parts.getD i [] = p.parts[i] :=
  getD_eq_getElem _ _ hi

theorem box_empty (mark : τ) : .new p.total = p.box mark ∅ := by
  simp [FragmentBox.new, box, toNat_total, mapIdx_eq_ofFn]

theorem set_parts (hi : i < p.parts.length) :
    (p.box mark seen).parts.set i (some (p.parts[i], mark)) = (p.box mark (insert i seen)).parts := by
  refine ext_getElem (by simp [box]) fun j h₁ h₂ => ?_
  by_cases hj : i = j
  case pos =>
    subst hj
    simp [box]
  case neg => simp [box, getElem_set_ne hj, Ne.symm hj]

theorem getElem_parts (hi : i < p.parts.length) :
    (p.box mark seen).parts[i]? = some (if i ∈ seen then some (p.parts[i], mark) else none) := by
  simp [box, hi]

theorem insert_box {head : PacketHead} (hi : i < p.parts.length) (hx : head.index = i.toUInt8)
    (ha : i = 0 → head.address = p.peer) :
    (p.box mark seen).insert head p.parts[i] mark = some (p.box mark (insert i seen)) := by
  have hb : (if i.toUInt8 = 0 then head.address else (p.box mark seen).address) = (p.box mark (insert i seen)).address := by
    simp only [box, toUInt8_eq_zero hi, Finset.mem_insert]
    by_cases hz : i = 0
    case pos => rw [if_pos hz, if_pos (.inl hz.symm), ha hz]
    case neg => simp [hz, Ne.symm hz]
  rw [FragmentBox.insert_eq, hx, hb, toNat_index hi]
  simp only [getElem_parts hi, set_parts hi, map_some]
  by_cases hs : i ∈ seen
  case pos => simp [box, hs]
  case neg => simp [box, hs]

theorem eq_range_of_card (hs : seen ⊆ Finset.range p.parts.length) :
    seen.card = p.parts.length ↔ seen = Finset.range p.parts.length := by
  refine ⟨fun h => Finset.eq_of_subset_of_card_le hs (by rw [Finset.card_range, h]), ?_⟩
  rintro rfl
  exact Finset.card_range _

theorem joined_box : (p.box mark (Finset.range p.parts.length)).joined = p.joined mark := by
  have hp : (p.box mark (Finset.range p.parts.length)).parts = p.parts.map fun part => some (part, mark) := by
    refine ext_getElem (by simp [box]) fun i h₁ h₂ => ?_
    have hi : i < p.parts.length := by simpa using h₂
    simp [box, hi]
  rw [FragmentBox.joined, hp, joined, flatMap_map, filterMap_map]
  simp [box, p.pos, map_const']

end Box

section Receive

variable {p} {mark : τ} {seen : Finset Nat} {i : Nat} {table : FragmentTable τ}

-- Nothing of the packet is there, or what the frames in `seen` have left.
def Seen (p : Parcel) (mark : τ) (seen : Finset Nat) (table : FragmentTable τ) : Prop :=
  seen ⊆ Finset.range p.parts.length ∧ (table (ASSOC_ID, p.packet)).getD (.new p.total) = p.box mark seen

theorem seen_of_none (h : table (ASSOC_ID, p.packet) = none) : p.Seen mark ∅ table :=
  ⟨Finset.empty_subset _, by rw [h, getD_none, box_empty]⟩

def headAt (p : Parcel) (i : Nat) : PacketHead :=
  headOf p.packet i.toUInt8 p.total (if i = 0 then p.address else [ADDR_NONE]) (if i = 0 then p.peer else .none)
    (p.parts.getD i [])

theorem receive_frame (hi : i < p.parts.length) (table : FragmentTable τ) (mark : τ) :
    table.receive (p.frame i) mark =
      if p.parts.length = 1 then some (table, some ⟨(p.headAt i).address, p.parts[i], [mark]⟩)
      else table.fragment (p.headAt i) p.parts[i] mark := by
  have hd (rest : Bytes) : decodeAddress ((if i = 0 then p.address else [ADDR_NONE]) ++ rest) =
      .ok (if i = 0 then p.peer else .none, (if i = 0 then p.address else [ADDR_NONE]).length) := by
    split
    case isTrue => exact p.decode rest
    case isFalse => rfl
  have hl : (p.parts.getD i []).length < 2 ^ 16 := by
    rw [getD_parts hi]
    exact p.length_part _ (getElem_mem hi)
  have ht : p.total ≤ 1 ↔ p.parts.length = 1 := by
    have := p.pos
    rw [UInt8.le_iff_toNat_le, toNat_total]
    exact ⟨fun h => by change _ ≤ 1 at h; omega, fun h => by change _ ≤ 1; omega⟩
  have hx : ¬ p.total ≤ i.toUInt8 := by
    rw [UInt8.le_iff_toNat_le, toNat_total, toNat_index hi]
    omega
  rw [frame, FragmentTable.receive_buildPacket _ _ hd hl]
  simp only [ht, if_neg hx, headAt, getD_parts hi]
  rfl

theorem receive_frame_one (h : p.parts.length = 1) (table : FragmentTable τ) (mark : τ) :
    table.receive (p.frame 0) mark = some (table, some (p.joined mark)) := by
  rw [receive_frame p.pos, if_pos h]
  have ⟨part, hp⟩ := length_eq_one_iff.mp h
  simp [joined, hp, headAt, headOf]

theorem Seen.receive_frame (h : p.Seen mark seen table) (hn : 1 < p.parts.length) (hi : i < p.parts.length) :
    table.receive (p.frame i) mark = some (
      if insert i seen = Finset.range p.parts.length then
        (Function.update table (ASSOC_ID, p.packet) none, some (p.joined mark))
      else (Function.update table (ASSOC_ID, p.packet) (some (p.box mark (insert i seen))), none)) := by
  obtain ⟨hs, hb⟩ := h
  have hr : insert i seen ⊆ Finset.range p.parts.length := Finset.insert_subset (Finset.mem_range.mpr hi) hs
  have hf : (p.box mark (insert i seen)).filled = (p.box mark (insert i seen)).total.toNat ↔
      insert i seen = Finset.range p.parts.length := by
    rw [← eq_range_of_card hr]
    simp only [box, toNat_total]
  rw [Parcel.receive_frame hi, if_neg (by omega), FragmentTable.fragment]
  have hi' : (p.box mark seen).insert (p.headAt i) p.parts[i] mark = some (p.box mark (insert i seen)) :=
    insert_box hi rfl fun hz => if_pos hz
  simp only [show (p.headAt i).packet = p.packet from rfl, show (p.headAt i).total = p.total from rfl, hb, hi', hf, map_some]
  by_cases hall : insert i seen = Finset.range p.parts.length
  case pos => rw [if_pos hall, if_pos hall, hall, joined_box]
  case neg => rw [if_neg hall, if_neg hall]

theorem mem_marks_box (hs : seen ⊆ Finset.range p.parts.length) (hi : i ∈ seen) : mark ∈ (p.box mark seen).joined.marks := by
  have hn : i < p.parts.length := Finset.mem_range.mp (hs hi)
  refine FragmentBox.mem_marks.mpr ⟨p.parts[i], mem_of_getElem? (i := i) ?_⟩
  rw [getElem_parts hn, if_pos hi]

end Receive

end Parcel

-- A server that numbers its packets one after the other.
structure Server where
  first : UInt16
  sent : Nat → Parcel
  packet_sent : ∀ k, (sent k).packet = first + .ofNat k

-- A frame that gets through: the number of its packet, counted without end, and its own.
structure Arrival where
  number : Nat
  index : Nat

structure Receiver where
  table : FragmentTable Nat := .empty
  newest : Nat := 0
  delivered : List (Joined Nat) := []

namespace Receiver

-- Frames get lost and overtake each other, but none comes after one of a packet that was sent a
-- whole cycle later. A panic ends the run.
def step (server : Server) (s : Receiver) (a : Arrival) : Option Receiver :=
  if a.index < (server.sent a.number).parts.length ∧ s.newest < a.number + 2 ^ 16 then
    (s.table.receive ((server.sent a.number).frame a.index) a.number).map fun (table, joined) =>
      { table, newest := max s.newest a.number, delivered := s.delivered ++ joined.toList }
  else none

-- What was put together from several frames is one packet.
def Intact (server : Server) (s : Receiver) : Prop :=
  ∀ j ∈ s.delivered, 1 < j.marks.length →
    ∃ k ∈ j.marks, j.address = (server.sent k).peer ∧ j.payload = (server.sent k).parts.flatten

-- A frame meets only frames of its own packet.
def Fresh (server : Server) (s : Receiver) (a : Arrival) : Prop :=
  1 < (server.sent a.number).parts.length →
    ∀ box ∈ s.table (ASSOC_ID, (server.sent a.number).packet), ∀ m ∈ box.joined.marks, m = a.number

instance (server : Server) : DecidablePred (Intact server) :=
  fun s => inferInstanceAs (Decidable (∀ j ∈ s.delivered, _ → _))

instance (server : Server) (s : Receiver) (a : Arrival) : Decidable (Fresh server s a) :=
  inferInstanceAs (Decidable (_ → _))

variable {server : Server} {s s' : Receiver} {a : Arrival}

-- The box holds frames of one packet.
def OfOne (server : Server) (box : FragmentBox Nat) : Prop :=
  ∃ k seen, seen.Nonempty ∧ seen ⊆ Finset.range (server.sent k).parts.length ∧ box = (server.sent k).box k seen

structure Sorted (server : Server) (s : Receiver) : Prop where
  intact : Intact server s
  boxes : ∀ key box, s.table key = some box → OfOne server box

theorem Sorted.seen (h : Sorted server s) (hn : 1 < (server.sent a.number).parts.length) (hf : Fresh server s a) :
    ∃ seen, (server.sent a.number).Seen a.number seen s.table := by
  cases ht : s.table (ASSOC_ID, (server.sent a.number).packet)
  case none => exact ⟨∅, Parcel.seen_of_none ht⟩
  case some box =>
    obtain ⟨k, seen, ⟨i, hi⟩, hs, rfl⟩ := h.boxes _ _ ht
    obtain rfl : k = a.number := hf hn _ ht k (Parcel.mem_marks_box hs hi)
    exact ⟨seen, hs, by rw [ht, getD_some]⟩

theorem Sorted.deliver (h : Sorted server s) (k : Nat) (newest : Nat) :
    Sorted server { s with newest, delivered := s.delivered ++ [(server.sent k).joined k] } := by
  refine { h with intact := fun j hj hl => ?_ }
  obtain hj | hj := mem_append.mp hj
  case inl => exact h.intact j hj hl
  case inr =>
    obtain rfl := mem_singleton.mp hj
    exact ⟨k, by simp [Parcel.joined, (server.sent k).pos.ne'], rfl, rfl⟩

theorem Sorted.update (h : Sorted server s) (key : FragmentKey) {box : Option (FragmentBox Nat)}
    (hb : ∀ b ∈ box, OfOne server b) (newest : Nat) :
    Sorted server { s with table := Function.update s.table key box, newest } := by
  refine { h with boxes := fun key' b hk => ?_ }
  simp only [Function.update_apply] at hk
  split at hk
  case isTrue => exact hb b hk
  case isFalse => exact h.boxes key' b hk

theorem Sorted.step (h : Sorted server s) (hf : Fresh server s a) (hs : step server s a = some s') : Sorted server s' := by
  obtain ⟨⟨hi, -⟩, hs⟩ := ite_none_right_eq_some.mp hs
  obtain ⟨⟨table, joined⟩, hr, rfl⟩ := map_eq_some_iff.mp hs
  by_cases hn : (server.sent a.number).parts.length = 1
  case pos =>
    obtain hz : a.index = 0 := by omega
    rw [hz, Parcel.receive_frame_one hn] at hr
    cases hr
    exact h.deliver a.number _
  case neg =>
    have hn : 1 < (server.sent a.number).parts.length := by have := (server.sent a.number).pos; omega
    obtain ⟨seen, hseen⟩ := h.seen hn hf
    rw [hseen.receive_frame hn hi] at hr
    split at hr
    case isTrue =>
      cases hr
      exact (h.update _ (by simp) s.newest).deliver a.number _
    case isFalse =>
      cases hr
      have hb : OfOne server ((server.sent a.number).box a.number (insert a.index seen)) :=
        ⟨a.number, _, Finset.insert_nonempty .., Finset.insert_subset (Finset.mem_range.mpr hi) hseen.left, rfl⟩
      dsimp only
      rw [toList_none, append_nil]
      exact h.update _ (by simpa using hb) _

-- In every run in which no frame meets those of another packet, what is put together is one packet.
theorem always_intact (server : Server) (run : List Arrival) (h : Lts.Admits (step server) (Fresh server) {} run) :
    Lts.Always (step server) (Intact server) {} run :=
  Lts.always_of_admits (I := Sorted server) (fun _ _ _ hi hf hs => hi.step hf hs) (fun _ hi => hi.intact)
    ⟨fun _ => nofun, fun _ _ => nofun⟩ h

-- Packets of two frames. The first comes from another address than the ones after it.
def twoFrames : Server where
  first := 0
  sent k := {
    packet := 0 + .ofNat k
    address := [ADDR_V4, 9, 9, 9, if k = 0 then 1 else 2, 0, 53]
    peer := .ip ⟨.v4 (.new 9 9 9 (if k = 0 then 1 else 2)), 53⟩
    parts := if k = 0 then [[1], [2]] else [[3], [4]]
    decode := fun _ => by split <;> rfl
    pos := by split <;> decide
    length_parts := by split <;> decide
    length_part := by split <;> decide }
  packet_sent _ := rfl

theorem always_intact_twoFrames : Lts.Admits (step twoFrames) (Fresh twoFrames) {} [⟨0, 1⟩, ⟨1, 0⟩, ⟨0, 0⟩, ⟨1, 1⟩] ∧
      Lts.Always (step twoFrames) (Intact twoFrames) {} [⟨0, 1⟩, ⟨1, 0⟩, ⟨0, 0⟩, ⟨1, 1⟩] :=
  have h : Lts.Admits (step twoFrames) (Fresh twoFrames) {} [⟨0, 1⟩, ⟨1, 0⟩, ⟨0, 0⟩, ⟨1, 1⟩] := by decide +kernel
  ⟨h, always_intact twoFrames _ h⟩

-- The second frame of the first packet is lost. A cycle later its number is used again.
theorem not_always_intact_twoFrames : ¬ Lts.Always (step twoFrames) (Intact twoFrames) {} [⟨0, 0⟩, ⟨2 ^ 16, 0⟩, ⟨2 ^ 16, 1⟩] :=
  Lts.not_always (by decide +kernel)

end Receiver

end Engine.Outbound
