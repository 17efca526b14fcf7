import SoildTunnel.Engine.Outbound.Pump
import SoildTunnel.Engine.Outbound.Theorems.Udp

-- Which datagrams make the loop panic.
namespace Engine.Outbound.Pump

open Lts Nat List Option

theorem slice_eq {buf : Bytes} {lo hi : Nat} (hl : lo ≤ hi) (hh : hi ≤ buf.length) :
    slice buf lo hi = some ((buf.take hi).drop lo) :=
  if_pos ⟨hl, hh⟩

theorem copyV6_take {buf : Bytes} (h : 16 ≤ buf.length) :
    copyV6 (buf.take 16) = some (.ofFn fun i => buf.get (i.castLE h)) := by
  have hl : (buf.take 16).length = 16 := by simp [h]
  simp [copyV6, hl]

section Address

variable (buf : Bytes)

theorem decodeAddress_eq_v4 : decodeAddress (ADDR_V4 :: buf) = some (Outbound.decodeAddress (ADDR_V4 :: buf)) := by
  rcases buf with _ | ⟨a, _ | ⟨b, _ | ⟨c, _ | ⟨d, _ | ⟨hi, _ | ⟨lo, rest⟩⟩⟩⟩⟩⟩
  all_goals simp [decodeAddress, Outbound.decodeAddress, ADDR_NONE, ADDR_V4]

theorem decodeAddress_eq_v6 : decodeAddress (ADDR_V6 :: buf) = some (Outbound.decodeAddress (ADDR_V6 :: buf)) := by
  have h₁ : ADDR_V6 ≠ ADDR_NONE := by decide
  have h₂ : ADDR_V6 ≠ ADDR_V4 := by decide
  simp only [decodeAddress, Outbound.decodeAddress, List.head?_cons, h₁, h₂, if_false, if_true]
  by_cases h : 18 ≤ buf.length
  case pos =>
    have hs : slice (ADDR_V6 :: buf) 1 17 = some (buf.take 16) := by
      rw [slice_eq (by omega) (by simp; omega)]
      rfl
    have hn : ¬ buf.length + 1 < 19 := by omega
    have hp : buf[16]? = some buf[16] := List.getElem?_eq_getElem _
    simp [hs, copyV6_take (le_of_succ_le (le_of_succ_le h)), h, hn, hp]
  case neg => simp [h, show buf.length + 1 < 19 by omega]

theorem port_cases {n : Nat} : (buf.length < n + 2 ∧ ∀ hi lo rest, buf.drop n ≠ hi :: lo :: rest) ∨
      n + 2 ≤ buf.length ∧ ∃ hi lo rest, buf.drop n = hi :: lo :: rest := by
  have hl : (buf.drop n).length = buf.length - n := length_drop
  generalize buf.drop n = rest at hl ⊢
  rcases rest with _ | ⟨hi, _ | ⟨lo, rest⟩⟩
  case nil => exact .inl ⟨by simp at hl; omega, nofun⟩
  case cons.nil => exact .inl ⟨by simp at hl; omega, nofun⟩
  case cons.cons => exact .inr ⟨by simp at hl; omega, hi, lo, rest, rfl⟩

theorem decodeAddress_eq_name : decodeAddress (ADDR_NAME :: buf) = some (Outbound.decodeAddress (ADDR_NAME :: buf)) := by
  have h₁ : ADDR_NAME ≠ ADDR_NONE := by decide
  have h₂ : ADDR_NAME ≠ ADDR_V4 := by decide
  have h₃ : ADDR_NAME ≠ ADDR_V6 := by decide
  simp only [decodeAddress, Outbound.decodeAddress, List.head?_cons, h₁, h₂, h₃, if_false, if_true]
  cases buf
  case nil => rfl
  case cons len buf =>
    simp only [List.getElem?_cons_succ, List.getElem?_cons_zero, length_cons]
    obtain ⟨h, hd⟩ | ⟨h, hi, lo, rest, hd⟩ := port_cases buf (n := len.toNat)
    case inl =>
      have hn : buf.length + 1 + 1 < 4 + len.toNat := by omega
      rw [if_pos hn]
      split
      case h_1 hi lo rest he => exact absurd he (hd hi lo rest)
      case h_2 => rfl
    case inr =>
      have hn : ¬ buf.length + 1 + 1 < 4 + len.toNat := by omega
      have hs : slice (ADDR_NAME :: len :: buf) 2 (2 + len.toNat) = some (buf.take len.toNat) := by
        rw [slice_eq (by omega) (by simp; omega), add_comm]
        rfl
      have hp₁ : (ADDR_NAME :: len :: buf)[2 + len.toNat]? = (buf.drop len.toNat)[0]? := by
        rw [add_comm, List.getElem?_drop]
        rfl
      have hp₂ : (ADDR_NAME :: len :: buf)[3 + len.toNat]? = (buf.drop len.toNat)[1]? := by
        rw [add_comm, List.getElem?_drop, add_comm len.toNat 1, add_comm 1]
        rfl
      rw [if_neg hn, hs, hp₁, hp₂, hd]
      rfl

end Address

theorem decodeAddress_eq (buf : Bytes) : decodeAddress buf = some (Outbound.decodeAddress buf) := by
  cases buf
  case nil => rfl
  case cons kind buf =>
    by_cases h₁ : kind = ADDR_V4
    case pos => exact h₁ ▸ decodeAddress_eq_v4 buf
    case neg =>
      by_cases h₂ : kind = ADDR_V6
      case pos => exact h₂ ▸ decodeAddress_eq_v6 buf
      case neg =>
        by_cases h₃ : kind = ADDR_NAME
        case pos => exact h₃ ▸ decodeAddress_eq_name buf
        case neg =>
          simp only [decodeAddress, Outbound.decodeAddress, List.head?_cons, h₁, h₂, h₃, if_false]
          split
          case isTrue => rfl
          case isFalse => rfl

theorem slice_drop (buf : Bytes) {lo : Nat} (h : lo ≤ buf.length) : slice buf lo buf.length = some (buf.drop lo) := by
  rw [slice_eq h le_rfl, take_length]

theorem parsePacketHead_eq (buf : Bytes) : parsePacketHead buf = some (Outbound.parsePacketHead buf) := by
  by_cases h : PACKET_HEADER ≤ buf.length
  case neg =>
    rw [parsePacketHead, if_pos (not_le.mp h)]
    unfold Outbound.parsePacketHead
    split
    case h_1 => exact absurd (by simp [PACKET_HEADER]) h
    case h_2 => rfl
  case pos =>
    rw [parsePacketHead, if_neg (not_lt.mpr h), slice_drop buf h]
    unfold Outbound.parsePacketHead
    split
    case h_2 hb =>
      rcases buf with _ | ⟨v, _ | ⟨c, _ | ⟨a, _ | ⟨b, _ | ⟨p₁, _ | ⟨p₂, _ | ⟨t, _ | ⟨i, _ | ⟨s₁, _ | ⟨s₂, rest⟩⟩⟩⟩⟩⟩⟩⟩⟩⟩
      case cons.cons.cons.cons.cons.cons.cons.cons.cons.cons => exact (hb _ _ _ _ _ _ _ _ _ _ _ rfl).elim
      all_goals simp [PACKET_HEADER] at h
    case h_1 version cmd a₁ a₂ p₁ p₂ total index s₁ s₂ rest =>
      by_cases hv : version = TUIC_VERSION
      case neg => simp [hv]
      case pos =>
        by_cases hc : cmd = CMD_PACKET
        case neg => simp [hv, hc]
        case pos =>
          subst hv hc
          have hd : decodeAddress ((TUIC_VERSION :: CMD_PACKET :: a₁ :: a₂ :: p₁ :: p₂ :: total :: index :: s₁ :: s₂ :: rest).drop
              PACKET_HEADER) = some (Outbound.decodeAddress rest) := decodeAddress_eq rest
          simp only [hd, List.getElem?_cons_succ, List.getElem?_cons_zero, Option.pure_def, Option.bind_eq_bind,
            bind_some, ne_eq, not_true_eq_false, if_false]
          cases Outbound.decodeAddress rest
          case error => rfl
          case ok => rfl

def InBounds (s : Pump) : Prop :=
  ¬ s.panicked

def fragmentHead (data : Bytes) : Option PacketHead :=
  match Outbound.parsePacketHead data with
  | .ok head =>
    if head.consumed + head.size ≤ data.length ∧ 1 < head.total ∧ head.index < head.total then some head else none
  | .error _ => none

-- A fragment is not numbered past the total of the one that opened its box.
def Fits (s : Pump) : PumpLabel → Prop
  | .openUdp => True
  | .datagram data _ =>
    ∀ head ∈ fragmentHead data, ∀ box ∈ s.fragments (ASSOC_ID, head.packet), head.index < box.total

-- A box has a place for each of its fragments.
def Inv (s : Pump) : Prop :=
  ∀ key, ∀ box ∈ s.fragments key, box.parts.length = box.total.toNat

theorem turn_eq (table : FragmentTable Unit) (data stale : Bytes) :
    turn table (data ++ stale) data.length = table.receive data () := by
  unfold turn FragmentTable.receive
  by_cases hl : data.length < PACKET_HEADER
  case pos => simp [hl]
  case neg =>
    have h1 : 1 < data.length := lt_of_lt_of_le (by decide) (not_lt.mp hl)
    have hs : slice (data ++ stale) 0 data.length = some data := by
      rw [slice_eq (zero_le _) (by simp)]
      simp
    have hc : (data ++ stale)[1]? = some data[1] := by simp [List.getElem?_append_left h1]
    simp only [hl, hs, hc, parsePacketHead_eq, List.getElem?_eq_getElem h1, if_false, false_or, Option.pure_def,
      bind_eq_bind, bind_some, ne_eq, Option.some.injEq]
    split
    case isTrue => rfl
    case isFalse =>
      cases Outbound.parsePacketHead data
      case error => rfl
      case ok head =>
        dsimp only
        split
        case isTrue => rfl
        case isFalse hp =>
          have hp := not_lt.mp hp
          have hq : slice (data ++ stale) head.consumed (head.consumed + head.size) =
              some ((data.drop head.consumed).take head.size) := by
            rw [slice_eq (Nat.le_add_right ..) (hp.trans (by simp)), List.take_append_of_le_length hp, List.drop_take,
              Nat.add_sub_cancel_left]
          simp only [hq, bind_some]

variable {head : PacketHead} {payload : Bytes}

theorem insert_eq_none {box : FragmentBox Unit} :
    box.insert head payload () = none ↔ box.parts.length ≤ head.index.toNat := by
  have hp : (if head.index = 0 then { box with address := head.address } else box).parts = box.parts := by
    split <;> rfl
  rw [FragmentBox.insert, map_eq_none_iff, hp, List.getElem?_eq_none_iff]

theorem length_insert {box box' : FragmentBox Unit} (h : box.insert head payload () = some box') :
    box'.parts.length = box.parts.length ∧ box'.total = box.total := by
  obtain ⟨part, -, rfl⟩ := map_eq_some_iff.mp h
  have hb : ∀ b : FragmentBox Unit, b = (if head.index = 0 then { box with address := head.address } else box) →
      b.parts.length = box.parts.length ∧ b.total = box.total := by
    rintro b rfl
    split <;> exact ⟨rfl, rfl⟩
  cases part
  case none => simpa using hb _ rfl
  case some => exact hb _ rfl

theorem of_parsePacketHead {data : Bytes} (h : Outbound.parsePacketHead data = .ok head) :
    PACKET_HEADER ≤ data.length ∧ data[1]? = some CMD_PACKET := by
  unfold Outbound.parsePacketHead at h
  split at h
  case h_2 => cases h
  case h_1 =>
    split at h
    case isTrue => cases h
    case isFalse =>
      split at h
      case isTrue => cases h
      case isFalse hc => exact ⟨by simp [PACKET_HEADER], by simpa using hc⟩

theorem receive_eq (table : FragmentTable Unit) (data : Bytes) :
    (fragmentHead data = none ∧ ∃ joined, table.receive data () = some (table, joined)) ∨
      ∃ head payload, fragmentHead data = some head ∧ head.index < head.total ∧
        table.receive data () = table.fragment head payload () := by
  unfold FragmentTable.receive fragmentHead
  cases hp : Outbound.parsePacketHead data
  case error => exact .inl ⟨rfl, none, by split <;> rfl⟩
  case ok head =>
    obtain ⟨hl, hc⟩ := of_parsePacketHead hp
    rw [if_neg (not_or.mpr ⟨not_lt.mpr hl, not_not.mpr hc⟩)]
    dsimp only
    by_cases hs : data.length < head.consumed + head.size
    case pos => exact .inl ⟨if_neg fun h => absurd h.1 (not_le.mpr hs), none, if_pos hs⟩
    case neg =>
      rw [if_neg hs]
      by_cases ht : head.total ≤ 1
      case pos => exact .inl ⟨if_neg fun h => absurd h.2.1 (UInt8.not_lt.mpr ht), _, if_pos ht⟩
      case neg =>
        rw [if_neg ht]
        by_cases hi : head.total ≤ head.index
        case pos => exact .inl ⟨if_neg fun h => absurd h.2.2 (UInt8.not_lt.mpr hi), none, if_pos hi⟩
        case neg =>
          rw [if_neg hi]
          have hi := UInt8.not_le.mp hi
          exact .inr ⟨head, _, if_pos ⟨not_lt.mp hs, UInt8.not_le.mp ht, hi⟩, hi, rfl⟩

theorem fragment_eq_none {table : FragmentTable Unit}
    (ht : ∀ box ∈ table (ASSOC_ID, head.packet), box.parts.length = box.total.toNat) (hi : head.index < head.total) :
    table.fragment head payload () = none ↔ ∃ box ∈ table (ASSOC_ID, head.packet), box.total ≤ head.index := by
  rw [FragmentTable.fragment, map_eq_none_iff, insert_eq_none]
  cases hb : table (ASSOC_ID, head.packet)
  case none =>
    have : ¬ head.total.toNat ≤ head.index.toNat := not_le.mpr hi
    simpa [FragmentBox.new] using this
  case some box =>
    have hl := ht box hb
    simp [hl, UInt8.le_iff_toNat_le]

variable {s s' : Pump} {l : PumpLabel}

theorem inv_fragment {table table' : FragmentTable Unit}
    {joined : Option (Joined Unit)} (ht : ∀ key, ∀ box ∈ table key, box.parts.length = box.total.toNat)
    (h : table.fragment head payload () = some (table', joined)) :
    ∀ key, ∀ box ∈ table' key, box.parts.length = box.total.toNat := by
  obtain ⟨box, hb, h⟩ := map_eq_some_iff.mp h
  have hl : box.parts.length = box.total.toNat := by
    obtain ⟨hp, he⟩ := length_insert hb
    rw [hp, he]
    cases ho : table (ASSOC_ID, head.packet)
    case none => simp [FragmentBox.new]
    case some old => exact ht _ old ho
  intro key box' hk
  split at h <;> cases h <;> simp only [Function.update_apply] at hk <;> split at hk
  case isTrue.refl.isTrue => cases hk
  case isTrue.refl.isFalse => exact ht key box' hk
  case isFalse.refl.isTrue => cases hk; exact hl
  case isFalse.refl.isFalse => exact ht key box' hk

-- The slices and indices of the loop other than that into the box are in bounds.
theorem step_eq {data stale : Bytes} (hp : ¬ s.panicked) (hl : (data ++ stale).length = MAX_DGRAM_PAYLOAD) :
    s.step (.datagram data stale) = some (s.resume (s.fragments.receive data ())) := by
  rw [step, if_neg (not_or.mpr ⟨hp, not_not.mpr hl⟩), turn_eq]

theorem step_datagram {data stale : Bytes} (h : s.step (.datagram data stale) = some s') :
    s' = s.resume (s.fragments.receive data ()) := by
  obtain ⟨hp, hl⟩ := not_or.mp (ite_none_left_eq_some.mp h).1
  rw [step_eq hp (not_not.mp hl), Option.some.injEq] at h
  exact h.symm

theorem inv_step (hi : s.Inv) (h : s.step l = some s') : s'.Inv := by
  cases l
  case openUdp =>
    obtain ⟨-, h⟩ := ite_none_left_eq_some.mp h
    cases h
    exact fun _ => nofun
  case datagram data stale =>
    rw [step_datagram h]
    obtain ⟨-, joined, he⟩ | ⟨head, payload, -, -, he⟩ := receive_eq s.fragments data
    case inl => rw [he]; exact hi
    case inr =>
      rw [he]
      cases hr : s.fragments.fragment head payload ()
      case none => exact hi
      case some r => exact inv_fragment hi hr

theorem not_panicked_of_step (h : s.step l = some s') : ¬ s.panicked := by
  cases l
  case openUdp => exact (ite_none_left_eq_some.mp h).1
  case datagram => exact fun hp => (ite_none_left_eq_some.mp h).1 (.inl hp)

theorem inBounds_step_iff (hi : s.Inv) (h : s.step l = some s') : s'.InBounds ↔ s.Fits l := by
  have hn := not_panicked_of_step h
  cases l
  case openUdp =>
    obtain ⟨-, h⟩ := ite_none_left_eq_some.mp h
    cases h
    exact iff_of_true hn trivial
  case datagram data stale =>
    rw [step_datagram h, Fits]
    obtain ⟨hf, joined, he⟩ | ⟨head, payload, hf, hx, he⟩ := receive_eq s.fragments data
    case inl => simpa [he, hf, InBounds, resume] using hn
    case inr =>
      have hz : s.fragments.fragment head payload () = none ↔ _ := fragment_eq_none (hi _) hx
      rw [hf, he]
      cases hr : s.fragments.fragment head payload ()
      case none =>
        obtain ⟨box, hb, hle⟩ := hz.mp hr
        exact iff_of_false (fun h => h rfl) fun h => absurd (h head rfl box hb) (UInt8.not_lt.mpr hle)
      case some r =>
        refine iff_of_true hn fun head' hh box hb => ?_
        cases hh
        by_contra hle
        cases hr.symm.trans (hz.mpr ⟨box, hb, UInt8.not_lt.mp hle⟩)

-- The loop panics exactly at a fragment that is numbered past the total of its box.
theorem always_inBounds_iff (run : List PumpLabel) : Always step InBounds {} run ↔ Admits step Fits {} run :=
  always_iff_admits (fun _ _ _ hi _ h _ => inv_step hi h) (fun _ _ _ hi _ h => inBounds_step_iff hi h)
    (fun _ => nofun) nofun

def fragment (total index : UInt8) : Bytes :=
  buildPacket 7 index total [ADDR_NONE] [0]

def padding : Bytes :=
  List.replicate (MAX_DGRAM_PAYLOAD - 12) 0

-- A box with two places is open, and then the fifth of five fragments arrives.
theorem not_always_inBounds :
    ¬ Always step InBounds {} [.datagram (fragment 2 0) padding, .datagram (fragment 5 4) padding] := by
  have hl : ∀ data : Bytes, data.length = 12 → (data ++ padding).length = MAX_DGRAM_PAYLOAD := by
    intro data hd
    rw [length_append, hd, padding, length_replicate]
    rfl
  rintro ⟨-, h⟩
  obtain ⟨-, h⟩ := h _ (step_eq nofun (hl _ rfl))
  have hs := h _ (step_eq (by decide +kernel) (hl _ rfl))
  exact hs (by decide +kernel)

end Engine.Outbound.Pump
