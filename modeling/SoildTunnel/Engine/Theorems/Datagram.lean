import SoildTunnel.Engine.Datagram
import SoildTunnel.Engine.Theorems.Masque

-- What is framed is found again.
namespace Engine.Masque

open Octets List

open Octets (Writer getVarint putVarint)

theorem varintLen_eq (v : Nat) : varintLen v = (putVarint v).length := by
  rw [length_putVarint]
  simp only [varintLen, Octets.varintLen]
  split_ifs <;> omega

section Encode

theorem encodeCapsule_eq (kind : Nat) (value : Bytes) :
    encodeCapsule kind value = putVarint kind ++ putVarint value.length ++ value := by
  have hc : varintLen kind + varintLen value.length + value.length =
      (putVarint kind).length + ((putVarint value.length).length + value.length) := by
    rw [varintLen_eq, varintLen_eq]
    omega
  simp [encodeCapsule, hc, putOrSkip, Writer.put_eq_some, Writer.put_eq_some_zero, Writer.out]

theorem encodeIpDatagram_eq (streamId : UInt64) (ipPacket : Bytes) : encodeIpDatagram streamId ipPacket =
      .ok (putVarint (quarterStreamId streamId) ++ putVarint CONNECT_IP_CONTEXT_ID ++ ipPacket) := by
  have hc : varintLen (quarterStreamId streamId) + varintLen CONNECT_IP_CONTEXT_ID + ipPacket.length =
      (putVarint (quarterStreamId streamId)).length +
        ((putVarint CONNECT_IP_CONTEXT_ID).length + ipPacket.length) := by
    rw [varintLen_eq, varintLen_eq]
    omega
  simp [encodeIpDatagram, hc, oct, Writer.put_eq_some, Writer.put_eq_some_zero, Writer.out, bind, Except.bind, pure, Except.pure]

end Encode

section Decode

theorem oct_getVarint {b r : Bytes} {v : Nat} (h : Incremental.next getVarint b = some (v, r)) :
    ∃ hr, oct (getVarint b) = .ok (v, ⟨r, hr⟩) := by
  have ⟨⟨w, s⟩, hg, he⟩ := Option.map_eq_some_iff.mp h
  obtain ⟨rfl, rfl⟩ := Prod.mk.inj he
  exact ⟨s.property, by rw [hg]; rfl⟩

theorem quarterStreamId_lt (streamId : UInt64) : quarterStreamId streamId < 2 ^ 62 := by
  have := streamId.toNat_lt
  unfold quarterStreamId
  omega

theorem decodeIpDatagram_append (streamId expect : UInt64) (ipPacket : Bytes) :
    decodeIpDatagram (putVarint (quarterStreamId streamId) ++ putVarint CONNECT_IP_CONTEXT_ID ++ ipPacket) expect =
      .ok (if quarterStreamId streamId = quarterStreamId expect then some ipPacket else none) := by
  have h₁ := next_getVarint_putVarint (quarterStreamId_lt streamId) (putVarint CONNECT_IP_CONTEXT_ID ++ ipPacket)
  have h₂ := next_getVarint_putVarint (show CONNECT_IP_CONTEXT_ID < 2 ^ 62 by decide) ipPacket
  obtain ⟨_, h₁⟩ := oct_getVarint h₁
  obtain ⟨_, h₂⟩ := oct_getVarint h₂
  rw [append_assoc, decodeIpDatagram, h₁]
  simp only [bind, Except.bind, pure, Except.pure]
  by_cases hq : quarterStreamId streamId = quarterStreamId expect
  case pos => simp [hq, h₂]
  case neg => simp [hq]

end Decode

section Capsule

variable {kind : Nat} {value rest : Bytes}

theorem header_putVarint (hk : kind < 2 ^ 62) {len : Nat} (hl : len < 2 ^ 62) (b : Bytes) :
    CapsuleParser.header (putVarint kind ++ putVarint len ++ b) = some (kind, len, b) := by
  simp [CapsuleParser.header, append_assoc, next_getVarint_putVarint hk, next_getVarint_putVarint hl]

theorem usize_of_le {abi : Abi} {n : Nat} (h : n ≤ MAX_CAPSULE_BUF) : abi.usize n = n := by
  have : MAX_CAPSULE_BUF < 2 ^ 32 := by decide
  cases abi
  case arm64 => exact Nat.mod_eq_of_lt (by omega)
  case armv7 => exact Nat.mod_eq_of_lt (by omega)

theorem next_encodeCapsule (abi : Abi) (hk : kind < 2 ^ 62) (hl : (encodeCapsule kind value ++ rest).length ≤ MAX_CAPSULE_BUF) :
    Incremental.next (CapsuleParser.next abi) (CapsuleParser.push [] (encodeCapsule kind value ++ rest)) =
      some (capsule kind value, rest) := by
  have hp : CapsuleParser.push [] (encodeCapsule kind value ++ rest) = encodeCapsule kind value ++ rest :=
    if_neg (by simpa using hl)
  have hv : value.length ≤ MAX_CAPSULE_BUF := by
    simp only [encodeCapsule_eq, length_append] at hl
    omega
  have hm : value.length < 2 ^ 62 := lt_of_le_of_lt hv (by decide)
  rw [hp, CapsuleParser.next_next, encodeCapsule_eq, append_assoc _ value, header_putVarint hk hm]
  simp [usize_of_le hv]

theorem capsule_datagram (value : Bytes) : capsule CAPSULE_DATAGRAM value = .ok (.datagram value) := rfl

theorem capsule_unknown (h : kind ∉ [CAPSULE_ADDRESS_ASSIGN, CAPSULE_ADDRESS_REQUEST, CAPSULE_ROUTE_ADVERTISEMENT, CAPSULE_DATAGRAM]) :
    capsule kind value = .ok (.unknown kind value) := by
  simp only [mem_cons, not_mem_nil, or_false, not_or] at h
  obtain ⟨h₁, h₂, h₃, h₄⟩ := h
  rw [capsule, if_neg h₁, if_neg h₂, if_neg h₃, if_neg h₄]

end Capsule

-- A capsule is consumed as it was written, with what follows left in the buffer, and a datagram is
-- read on its own stream only.
theorem framing_roundtrip :
    (∀ abi kind value rest, kind < 2 ^ 62 → (encodeCapsule kind value ++ rest).length ≤ MAX_CAPSULE_BUF →
      ∃ result, Incremental.next (CapsuleParser.next abi) (CapsuleParser.push [] (encodeCapsule kind value ++ rest)) =
          some (result, rest) ∧
        (kind = CAPSULE_DATAGRAM → result = .ok (.datagram value)) ∧
        (kind ∉ [CAPSULE_ADDRESS_ASSIGN, CAPSULE_ADDRESS_REQUEST, CAPSULE_ROUTE_ADVERTISEMENT, CAPSULE_DATAGRAM] →
          result = .ok (.unknown kind value))) ∧
    ∀ (streamId : UInt64) (ipPacket : Bytes), streamId.toNat % 4 = 0 →
      ∃ datagram, encodeIpDatagram streamId ipPacket = .ok datagram ∧
        decodeIpDatagram datagram streamId = .ok (some ipPacket) ∧
        ∀ other : UInt64, other.toNat % 4 = 0 → other ≠ streamId → decodeIpDatagram datagram other = .ok none := by
  constructor
  case left =>
    intro abi kind value rest hk hl
    refine ⟨_, next_encodeCapsule abi hk hl, fun he => ?_, capsule_unknown⟩
    rw [he, capsule_datagram]
  case right =>
    intro streamId ipPacket hs
    refine ⟨_, encodeIpDatagram_eq streamId ipPacket, ?_, fun other ho hne => ?_⟩
    · rw [decodeIpDatagram_append, if_pos rfl]
    · have hq : quarterStreamId streamId ≠ quarterStreamId other := by
        intro he
        unfold quarterStreamId at he
        exact hne (UInt64.toNat_inj.mp (by omega))
      rw [decodeIpDatagram_append, if_neg hq]

theorem framing_roundtrip_unassigned :
    Incremental.next (CapsuleParser.next .armv7) (CapsuleParser.push [] (encodeCapsule 16384 [7] ++ [0])) =
        some (.ok (.unknown 16384 [7]), [0]) ∧
      ∃ datagram, encodeIpDatagram 4 [69] = .ok datagram ∧ decodeIpDatagram datagram 4 = .ok (some [69]) ∧
        decodeIpDatagram datagram 8 = .ok none := by
  obtain ⟨result, h, -, hu⟩ := framing_roundtrip.1 .armv7 16384 [7] [0] (by decide) (by decide)
  obtain ⟨datagram, he, hd, ho⟩ := framing_roundtrip.2 4 [69] rfl
  exact ⟨hu (by decide) ▸ h, datagram, he, hd, ho 8 rfl (by decide)⟩

section Context

variable {e p : Bytes}

-- The first byte of an IPv4 header with at least five words, or of an IPv6 header.
def IsIpHead (first : UInt8) : Prop :=
  first.toNat / 16 = 4 ∧ 5 ≤ first.toNat % 16 ∨ first.toNat / 16 = 6

structure IsIpPacket (p : Bytes) : Prop where
  head : ∃ first, p.head? = some first ∧ IsIpHead first
  length : 20 ≤ p.length

theorem IsIpPacket.looksLike (h : IsIpPacket p) : looksLikeIpPacket p := by
  obtain ⟨⟨first, hf, hh⟩, hl⟩ := h
  cases p
  case nil => cases hf
  case cons x p =>
    cases hf
    have hs : first >>> 4 = 4 ∨ first >>> 4 = 6 := by
      simp only [← UInt8.toNat_inj, UInt8.toNat_shiftRight]
      change first.toNat >>> 4 = 4 ∨ first.toNat >>> 4 = 6
      rw [Nat.shiftRight_eq_div_pow]
      unfold IsIpHead at hh
      omega
    simpa [looksLikeIpPacket, hs] using hl

theorem stripContextId_eq {payload r : Bytes} {v : Nat} (h : Incremental.next getVarint payload = some (v, r)) :
    stripContextId payload = if v = CONNECT_IP_CONTEXT_ID && looksLikeIpPacket r then some r else none := by
  have ⟨⟨w, s⟩, hg, he⟩ := Option.map_eq_some_iff.mp h
  obtain ⟨rfl, rfl⟩ := Prod.mk.inj he
  rw [stripContextId, hg]

-- As a varint it has two bytes, and the first one is not zero below its mark.
theorem stripContextId_packet (h : IsIpPacket p) : stripContextId p = none := by
  obtain ⟨⟨first, hf, hh⟩, hl⟩ := h
  have hd : first.toNat / 64 = 1 := by
    unfold IsIpHead at hh
    omega
  match p, hf, hl with
  | x :: y :: p, hf, _ =>
    cases hf
    have hn : Incremental.next getVarint (first :: y :: p) = some ((first.toNat * 256 + y.toNat) % 2 ^ 14, p) := by
      rw [next_getVarint_cons, hd, if_pos (by simp)]
      simp [Octets.bigEndian]
    have hc : (first.toNat * 256 + y.toNat) % 2 ^ 14 ≠ 0 := by
      have := y.toNat_lt
      unfold IsIpHead at hh
      omega
    rw [stripContextId_eq hn, if_neg]
    simp only [CONNECT_IP_CONTEXT_ID, hc, decide_false, Bool.false_and, Bool.false_eq_true, not_false_eq_true]
  | [x], _, hl => simp at hl

theorem stripDatagramContext_packet (h : IsIpPacket p) : stripDatagramContext p = some p := by
  have hne : p ≠ [] := by
    rintro rfl
    exact absurd h.length (by decide)
  rw [stripDatagramContext, if_neg hne, stripContextId_packet h]
  exact if_pos h.looksLike

theorem stripDatagramContext_append (he : Incremental.next getVarint e = some (0, [])) (h : IsIpPacket p) :
    stripDatagramContext (e ++ p) = some p := by
  have ⟨q, hq, hc⟩ := next_getVarint_eq_some he
  rw [append_nil] at hq
  subst hq
  have hs : stripContextId (e ++ p) = some p := by
    simp [stripContextId_eq (hc p), CONNECT_IP_CONTEXT_ID, h.looksLike]
  have hne : e ++ p ≠ [] := by
    intro hn
    have := h.length
    simp [(append_eq_nil_iff.mp hn).2] at this
  rw [stripDatagramContext, if_neg hne, hs]

-- A packet is not mistaken for a context id, and a context id of any length is taken off.
theorem stripDatagramContext_eq (e p : Bytes) (he : Incremental.next getVarint e = some (0, [])) (h : IsIpPacket p) :
    stripDatagramContext p = some p ∧ stripDatagramContext (e ++ p) = some p :=
  ⟨stripDatagramContext_packet h, stripDatagramContext_append he h⟩

theorem stripDatagramContext_eq_four :
    stripDatagramContext (0x45 :: List.replicate 19 0) = some (0x45 :: List.replicate 19 0) ∧
      stripDatagramContext ([0x80, 0, 0, 0] ++ 0x45 :: List.replicate 19 0) = some (0x45 :: List.replicate 19 0) :=
  stripDatagramContext_eq [0x80, 0, 0, 0] (0x45 :: List.replicate 19 0) (by decide)
    ⟨⟨0x45, rfl, .inl (by decide)⟩, by decide⟩

end Context

end Engine.Masque
