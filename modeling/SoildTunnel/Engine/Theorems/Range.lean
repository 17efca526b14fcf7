import SoildTunnel.Engine.Theorems.Candidates
import SoildTunnel.Engine.Theorems.RangeCode

-- Whether a search in the ranges of the user stays in them, and whether it looks into each of them.
namespace Engine.Scan

open Rust Checked RangeCode List

section Block

-- How many addresses a block has, which of them is the one that is written, and where the next block begins.
def Cidr.count (c : Cidr Ipv4Addr) : Nat :=
  2 ^ (32 - c.bits)

def Cidr.hostPart (c : Cidr Ipv4Addr) : Nat :=
  toU32 c.base % c.count

def Cidr.next (c : Cidr Ipv4Addr) : Nat :=
  (toU32 c.base / c.count + 1) * c.count

def Cidr.Contains (c : Cidr Ipv4Addr) (ip : Ipv4Addr) : Prop :=
  toU32 ip / c.count = toU32 c.base / c.count

instance (c : Cidr Ipv4Addr) : DecidablePred c.Contains :=
  fun ip => inferInstanceAs (Decidable (toU32 ip / c.count = toU32 c.base / c.count))

-- The address is in one of the blocks that the user has written.
def Inside (cidrs : List (Cidr Ipv4Addr)) : IpAddr → Prop
  | .v4 ip => ∃ c ∈ cidrs, c.Contains ip
  | .v6 _ => False

instance (cidrs : List (Cidr Ipv4Addr)) : DecidablePred (Inside cidrs)
  | .v4 ip => inferInstanceAs (Decidable (∃ c ∈ cidrs, c.Contains ip))
  | .v6 _ => isFalse id

variable {c : Cidr Ipv4Addr}

theorem Cidr.count_pos (c : Cidr Ipv4Addr) : 0 < c.count :=
  Nat.two_pow_pos _

theorem hostAt_zero (c : Cidr Ipv4Addr) : hostAt c 0 = c.base :=
  ipv4OfNat_toU32 c.base

theorem Cidr.contains_base (c : Cidr Ipv4Addr) : c.Contains c.base := rfl

theorem Cidr.next_le (h : c.bits ≤ 32) : c.next ≤ 2 ^ 32 := by
  have hc : c.count * 2 ^ c.bits = 2 ^ 32 := by
    rw [count, ← pow_add, Nat.sub_add_cancel h]
  have hlt : toU32 c.base / c.count < 2 ^ c.bits :=
    Nat.div_lt_of_lt_mul (hc ▸ toU32_lt c.base)
  calc
    c.next ≤ 2 ^ c.bits * c.count := Nat.mul_le_mul_right c.count hlt
    _ = 2 ^ 32 := by rw [Nat.mul_comm, hc]

theorem Cidr.contains_iff {a : Nat} (h : toU32 c.base ≤ a) (ha : a < 2 ^ 32) : c.Contains (ipv4OfNat a) ↔ a < c.next := by
  rw [Contains, toU32_ipv4OfNat, Nat.mod_eq_of_lt ha, next]
  have hle : toU32 c.base / c.count ≤ a / c.count := Nat.div_le_div_right h
  rw [← Nat.div_lt_iff_lt_mul c.count_pos]
  omega

end Block

section Drawing

def World.drawing (choose : Cidr Ipv4Addr → Nat → List Nat) : World where
  env _ := none
  hostHasIpv6 := false
  tier := .high
  sampleCidrV4 _ c n := if size c ≤ 2 then [c.base] else (choose c n).map (hostAt c)
  sampleCidrV6 _ _ _ := []

theorem World.samples_drawing {choose : Cidr Ipv4Addr → Nat → List Nat} (h : ∀ c n, 2 < size c → Drawn c n (choose c n)) :
    (drawing choose).Samples := by
  intro i c n
  simp only [drawing]
  split
  case isTrue hs => exact ⟨[], sampleCidrV4_of_le hs [] n⟩
  case isFalse hs =>
    have hs : 2 < size c := by omega
    exact (exists_draws_iff hs n _).mpr ⟨choose c n, h c n hs, rfl⟩

variable {w : World} {c : Cidr Ipv4Addr} {n i : Nat} {ip : Ipv4Addr}

theorem wanted_le (c : Cidr Ipv4Addr) (n : Nat) : wanted c n ≤ size c - 2 :=
  Nat.min_le_right _ _

theorem drawn_range' {from_ : Nat} (h : 1 ≤ from_) (h' : from_ + wanted c n ≤ size c - 1) :
    Drawn c n (List.range' from_ (wanted c n)) where
  nodup := nodup_range'
  bounds off ho := by
    have := mem_range'_1.mp ho
    omega
  length := length_range'

-- A given offset, if it can be drawn, and the first others.
def including (off : Nat) (c : Cidr Ipv4Addr) (n : Nat) : List Nat :=
  if wanted c n < off ∧ off ≤ size c - 2 ∧ 0 < wanted c n then off :: List.range' 1 (wanted c n - 1)
  else List.range' 1 (wanted c n)

theorem drawn_including (off : Nat) (hs : 2 < size c) : Drawn c n (including off c n) := by
  have hw := wanted_le c n
  unfold including
  split
  case isFalse => exact drawn_range' le_rfl (by omega)
  case isTrue h =>
    refine ⟨nodup_cons.mpr ⟨fun hm => ?_, nodup_range'⟩, fun x hx => ?_, ?_⟩
    · have := mem_range'_1.mp hm
      omega
    · rcases mem_cons.mp hx with rfl | hx
      · omega
      · have := mem_range'_1.mp hx
        omega
    · rw [length_cons, length_range']
      omega

theorem mem_including {off : Nat} (h₁ : 1 ≤ off) (h₂ : off ≤ size c - 2) (hn : 0 < n % 2 ^ 32) : off ∈ including off c n := by
  have hw : 0 < wanted c n := by
    rw [wanted]
    omega
  unfold including
  split
  case isTrue => exact mem_cons_self
  case isFalse h => exact mem_range'_1.mpr ⟨h₁, by omega⟩

theorem exists_of_mem_sampleCidrV4 (hw : w.Samples) (h : ip ∈ w.sampleCidrV4 i c n) : ∃ off ≤ size c - 2, ip = hostAt c off := by
  have hd := hw i c n
  by_cases hs : size c ≤ 2
  case pos =>
    obtain ⟨draws, hg⟩ := hd
    rw [Option.some_inj.mp (hg.unique (sampleCidrV4_of_le hs draws n)), mem_singleton] at h
    exact ⟨0, Nat.zero_le _, h.trans (hostAt_zero c).symm⟩
  case neg =>
    obtain ⟨offs, ho, he⟩ := (exists_draws_iff (by omega) n _).mp hd
    rw [he] at h
    obtain ⟨off, hm, rfl⟩ := mem_map.mp h
    exact ⟨off, (ho.bounds off hm).2, rfl⟩

end Drawing

section Reach

-- The largest offset that is added to the address of a range.
def reach (full : Bool) (c : Cidr Ipv4Addr) : Nat :=
  if full then (if 32 - c.bits ≤ 12 then c.count - 2 else 0) else size c - 2

variable {w : World} {st : Strategy} {c : Cidr Ipv4Addr} {off : Nat} {ip : Ipv4Addr}

theorem mem_enumerateCidrV4_iff (h₀ : 32 - c.bits ≠ 0) :
    ip ∈ Scan.enumerateCidrV4 c ↔ ∃ off, 1 ≤ off ∧ off ≤ reach true c ∧ ip = hostAt c off := by
  simp only [Scan.enumerateCidrV4, h₀, if_false, reach, if_true]
  by_cases hb : 32 - c.bits ≤ 12
  case neg =>
    rw [if_pos (by omega), if_neg hb]
    refine iff_of_false not_mem_nil ?_
    rintro ⟨off, h₁, h₂, -⟩
    omega
  case pos =>
    rw [if_neg (by omega), if_pos hb, Cidr.count, mem_map]
    simp only [mem_range'_1]
    constructor
    case mp =>
      rintro ⟨off, ho, rfl⟩
      exact ⟨off, ho.1, by omega, rfl⟩
    case mpr =>
      rintro ⟨off, h₁, h₂, rfl⟩
      exact ⟨off, ⟨h₁, by omega⟩, rfl⟩

theorem reach_eq_zero (h₀ : 32 - c.bits = 0) : reach true c = 0 := by
  simp [reach, Cidr.count, h₀]

theorem enumerateCidrV4_eq (h₀ : 32 - c.bits = 0) : Scan.enumerateCidrV4 c = [c.base] := by
  simp [Scan.enumerateCidrV4, h₀]

theorem exists_of_mem_enumerateCidrV4 (h : ip ∈ Scan.enumerateCidrV4 c) :
    ∃ off ≤ reach true c, ip = hostAt c off := by
  by_cases h₀ : 32 - c.bits = 0
  case pos =>
    rw [enumerateCidrV4_eq h₀, mem_singleton] at h
    exact ⟨0, Nat.zero_le _, h.trans (hostAt_zero c).symm⟩
  case neg =>
    obtain ⟨off, -, ho, he⟩ := (mem_enumerateCidrV4_iff h₀).mp h
    exact ⟨off, ho, he⟩

theorem mem_enumerateCidrV4 (h₁ : 1 ≤ off) (h₂ : off ≤ reach true c) : hostAt c off ∈ Scan.enumerateCidrV4 c := by
  have h₀ : 32 - c.bits ≠ 0 := by
    intro h₀
    rw [reach_eq_zero h₀] at h₂
    omega
  exact (mem_enumerateCidrV4_iff h₀).mpr ⟨off, h₁, h₂, rfl⟩

-- What a search takes from a range lies within reach, and all of it may be taken.
theorem exists_of_mem_hostsV4 (hw : w.Samples) {i : Nat} (h : ip ∈ w.hostsV4 st i c) :
    ∃ off ≤ reach st.fullSubnet c, ip = hostAt c off := by
  unfold World.hostsV4 at h
  cases hf : st.fullSubnet
  case true =>
    simp only [hf, if_true] at h
    exact exists_of_mem_enumerateCidrV4 h
  case false =>
    simp only [hf, Bool.false_eq_true, if_false] at h
    exact exists_of_mem_sampleCidrV4 hw h

theorem mem_hostsV4_drawing (hn : st.fullSubnet = false → 0 < st.samplePerCidr % 2 ^ 32) (h₁ : 1 ≤ off)
    (h₂ : off ≤ reach st.fullSubnet c) (i : Nat) : hostAt c off ∈ (World.drawing (including off)).hostsV4 st i c := by
  unfold World.hostsV4
  cases hf : st.fullSubnet
  case true =>
    rw [hf] at h₂
    exact mem_enumerateCidrV4 h₁ h₂
  case false =>
    rw [hf] at h₂
    have h₂ : off ≤ size c - 2 := h₂
    simp only [Bool.false_eq_true, if_false, World.drawing]
    rw [if_neg (by omega)]
    exact mem_map_of_mem (mem_including h₁ h₂ (hn hf))

theorem gives_hostsV4_iff (hn : st.fullSubnet = false → 0 < st.samplePerCidr % 2 ^ 32) :
    (∀ draws, ∃ o, Gives (RangeCode.hostsV4 .debug st draws c) o) ↔
      ∀ off, 1 ≤ off → off ≤ reach st.fullSubnet c → toU32 c.base + off < 2 ^ 32 := by
  constructor
  case mp =>
    intro h off h₁ h₂
    obtain ⟨o, ho⟩ := h [off - 1]
    unfold RangeCode.hostsV4 at ho
    cases hf : st.fullSubnet
    case true =>
      simp only [hf, if_true] at ho
      have hb : 32 - c.bits ≤ 12 := by
        by_contra hb
        simp only [hf, reach, if_true, hb, if_false] at h₂
        omega
      simp only [hf, reach, if_true, hb] at h₂
      exact lt_of_gives_enumerateCidrV4 ho hb h₁ h₂
    case false =>
      simp only [hf, reach, Bool.false_eq_true, if_false] at ho h₂
      exact lt_of_gives_sampleCidrV4 (by omega) (hn hf) h₁ h₂ ho
  case mpr =>
    intro h draws
    have h' : ∀ off ≤ reach st.fullSubnet c, toU32 c.base + off < 2 ^ 32 := by
      intro off ho
      cases off
      case zero => exact toU32_lt c.base
      case succ off => exact h _ (by omega) ho
    unfold RangeCode.hostsV4
    cases hf : st.fullSubnet
    case true =>
      simp only [hf, reach, if_true] at h'
      refine ⟨_, gives_enumerateCidrV4 (.inr fun hb off ho => h' off ?_)⟩
      rwa [if_pos hb]
    case false =>
      simp only [hf, reach, Bool.false_eq_true, if_false] at h'
      by_cases hs : size c ≤ 2
      case pos => exact ⟨_, sampleCidrV4_of_le hs draws st.samplePerCidr⟩
      case neg => exact ⟨_, gives_sampleCidrV4 (by omega) (.inr h') draws st.samplePerCidr⟩

end Reach

variable {st : Strategy} {c : Cidr Ipv4Addr} {ip : IpAddr} {raw : Text}

section Manual

variable {w : World} {cidrs : List (Cidr Ipv4Addr)}

theorem bits_le_of_appNormalizeCidrV4 (h : appNormalizeCidrV4 raw = some c) : c.bits ≤ 32 := by
  simp only [appNormalizeCidrV4] at h
  obtain ⟨-, h⟩ := Option.ite_none_left_eq_some.mp h
  split at h
  case h_1 =>
    obtain ⟨base, -, h⟩ := Option.bind_eq_some_iff.mp h
    obtain ⟨bits, -, h⟩ := Option.bind_eq_some_iff.mp h
    obtain ⟨hb, h⟩ := Option.ite_none_right_eq_some.mp h
    cases h
    exact hb
  case h_2 =>
    split at h
    all_goals
      obtain ⟨ip, -, rfl⟩ := Option.map_eq_some_iff.mp h
      simp

theorem bits_le_of_mem_manualRanges (h : c ∈ manualRanges raw) : c.bits ≤ 32 := by
  obtain ⟨entry, -, he⟩ := mem_filterMap.mp h
  exact bits_le_of_appNormalizeCidrV4 he

theorem mem_hosts : ip ∈ (interleave (cidrs.mapIdx (w.hostsV4 st))).map IpAddr.v4 ↔
      ∃ i c a, cidrs[i]? = some c ∧ a ∈ w.hostsV4 st i c ∧ ip = .v4 a := by
  simp only [mem_map, mem_interleave, mem_mapIdx]
  constructor
  case mp =>
    rintro ⟨a, ⟨l, ⟨i, hi, rfl⟩, ha⟩, rfl⟩
    exact ⟨i, cidrs[i], a, List.getElem?_eq_getElem hi, ha, rfl⟩
  case mpr =>
    rintro ⟨i, c, a, hc, ha, rfl⟩
    obtain ⟨hi, rfl⟩ := List.getElem?_eq_some_iff.mp hc
    exact ⟨a, ⟨_, ⟨i, hi, rfl⟩, ha⟩, rfl⟩

theorem mem_manualMasqueCandidates (ports : List UInt16) :
    (∃ a ∈ manualMasqueCandidates w st ports cidrs, a.ip = ip) ↔
      ip ∈ (interleave (cidrs.mapIdx (w.hostsV4 st))).map IpAddr.v4 := by
  constructor
  case mp =>
    rintro ⟨a, ha, rfl⟩
    rcases mem_sweep.mp ha with h | h
    · exact h.1
    · exact h.1
  case mpr => exact fun h => ⟨⟨ip, ports.headD 443⟩, mem_sweep.mpr (.inl ⟨h, rfl⟩), rfl⟩

theorem mem_manualWgCandidates {st : WgStrategy} {ports : List UInt16} {excluded : List SocketAddr} {a : SocketAddr}
    (h : a ∈ manualWgCandidates w st ports cidrs excluded) :
    a.ip ∈ (interleave (cidrs.mapIdx (w.hostsV4 st.toStrategy))).map IpAddr.v4 := by
  refine (mem_pushCandidates ?_ h).1
  split
  case isTrue => exact cons_ne_nil _ _
  case isFalse hp => exact hp

theorem strategy_fullSubnet (mode : ScanMode) :
    mode.strategy.fullSubnet = decide (mode = .thorough) ∧ mode.wgStrategy.fullSubnet = decide (mode = .thorough) := by
  cases mode <;> exact ⟨rfl, rfl⟩

theorem samplePerCidr_pos (mode : ScanMode) :
    (mode.strategy.fullSubnet = false → 0 < mode.strategy.samplePerCidr % 2 ^ 32) ∧
      (mode.wgStrategy.fullSubnet = false → 0 < mode.wgStrategy.samplePerCidr % 2 ^ 32) := by
  cases mode <;> decide

end Manual

-- In every scan with these ranges all candidates lie inside of them, and no number overflows on the way.
structure ScansInside (mode : ScanMode) (raw : Text) : Prop where
  masque : ∀ w : World, w.Samples → ∀ ports, ∀ a ∈ manualMasqueCandidates w mode.strategy ports (manualRanges raw),
    Inside (manualRanges raw) a.ip
  wireGuard : ∀ w : World, w.Samples → ∀ ports excluded,
    ∀ a ∈ manualWgCandidates w mode.wgStrategy ports (manualRanges raw) excluded, Inside (manualRanges raw) a.ip
  masque_checked : ∀ c ∈ manualRanges raw, ∀ draws, ∃ o, Gives (RangeCode.hostsV4 .debug mode.strategy draws c) o
  wireGuard_checked : ∀ c ∈ manualRanges raw, ∀ draws,
    ∃ o, Gives (RangeCode.hostsV4 .debug mode.wgStrategy.toStrategy draws c) o

-- The addresses that follow the block of a range, as far as the scan gets from the one that is written.
def Overhang (mode : ScanMode) (c : Cidr Ipv4Addr) (a : Nat) : Prop :=
  c.next ≤ a ∧ a ≤ toU32 c.base + reach (mode = .thorough) c

def Covered (cidrs : List (Cidr Ipv4Addr)) (a : Nat) : Prop :=
  a < 2 ^ 32 ∧ Inside cidrs (.v4 (ipv4OfNat a))

section Covered

variable {mode : ScanMode} {raw : Text} {c : Cidr Ipv4Addr}

theorem covered_of_scansInside (h : ScansInside mode raw) (hc : c ∈ manualRanges raw) (off : Nat) (h₁ : 1 ≤ off)
    (h₂ : off ≤ reach (mode = .thorough) c) : Covered (manualRanges raw) (toU32 c.base + off) := by
  rw [← (strategy_fullSubnet mode).1] at h₂
  have hn := (samplePerCidr_pos mode).1
  refine ⟨(gives_hostsV4_iff hn).mp (h.masque_checked c hc) off h₁ h₂, ?_⟩
  obtain ⟨i, hi⟩ := mem_iff_getElem?.mp hc
  have hm := mem_hosts.mpr ⟨i, c, hostAt c off, hi, mem_hostsV4_drawing hn h₁ h₂ i, rfl⟩
  obtain ⟨a, ha, he⟩ := (mem_manualMasqueCandidates []).mpr hm
  exact he ▸ h.masque _ (World.samples_drawing fun _ _ => drawn_including off) [] a ha

-- As far as a scan gets, it finds addresses of the block and, if there is an overhang, of other blocks.
theorem covered_of_overhang (h : ∀ a, Overhang mode c a → Covered (manualRanges raw) a) (hc : c ∈ manualRanges raw) {off : Nat}
    (ho : off ≤ reach (mode = .thorough) c) : Covered (manualRanges raw) (toU32 c.base + off) := by
  by_cases hlt : toU32 c.base + off < c.next
  case pos =>
    have ha : toU32 c.base + off < 2 ^ 32 := hlt.trans_le (Cidr.next_le (bits_le_of_mem_manualRanges hc))
    exact ⟨ha, c, hc, (Cidr.contains_iff (Nat.le_add_right _ _) ha).mpr hlt⟩
  case neg => exact h _ ⟨by omega, by omega⟩

theorem inside_of_mem_hosts {w : World} (hw : w.Samples) (hf : st.fullSubnet = decide (mode = .thorough))
    (h : ∀ c ∈ manualRanges raw, ∀ a, Overhang mode c a → Covered (manualRanges raw) a)
    (hip : ip ∈ (interleave ((manualRanges raw).mapIdx (w.hostsV4 st))).map IpAddr.v4) : Inside (manualRanges raw) ip := by
  obtain ⟨i, c, a, hi, ha, rfl⟩ := mem_hosts.mp hip
  have hc := mem_of_getElem? hi
  obtain ⟨off, ho, rfl⟩ := exists_of_mem_hostsV4 hw ha
  rw [hf] at ho
  exact (covered_of_overhang (h c hc) hc ho).2

end Covered

theorem scansInside_iff (mode : ScanMode) (raw : Text) :
    ScansInside mode raw ↔ ∀ c ∈ manualRanges raw, ∀ a, Overhang mode c a → Covered (manualRanges raw) a := by
  have ⟨hm, hw⟩ := strategy_fullSubnet mode
  have ⟨hn, hn'⟩ := samplePerCidr_pos mode
  constructor
  case mp =>
    rintro h c hc a ⟨h₁, h₂⟩
    have hlt : toU32 c.base < c.next := Nat.lt_mul_of_div_lt (Nat.lt_succ_self _) c.count_pos
    have ha := covered_of_scansInside h hc (a - toU32 c.base) (by omega) (by omega)
    rwa [Nat.add_sub_cancel' (by omega)] at ha
  case mpr =>
    intro h
    refine ⟨fun w hs ports a ha => ?_, fun w hs ports excluded a ha => ?_, fun c hc => ?_, fun c hc => ?_⟩
    · exact inside_of_mem_hosts hs hm h ((mem_manualMasqueCandidates ports).mp ⟨a, ha, rfl⟩)
    · exact inside_of_mem_hosts hs hw h (mem_manualWgCandidates ha)
    · rw [gives_hostsV4_iff hn, hm]
      exact fun off _ ho => (covered_of_overhang (h c hc) hc ho).1
    · rw [gives_hostsV4_iff hn', hw]
      exact fun off _ ho => (covered_of_overhang (h c hc) hc ho).1

-- The last address of a block of four: the two addresses that are taken for its hosts come after the block.
theorem not_scansInside : ¬ ScansInside .thorough "188.114.96.255/30".toList := by
  intro h
  have hr : manualRanges "188.114.96.255/30".toList = [⟨.new 188 114 96 255, 30⟩] := by decide +kernel
  have hc : (⟨.new 188 114 96 255, 30⟩ : Cidr Ipv4Addr) ∈ manualRanges "188.114.96.255/30".toList := hr ▸ mem_cons_self
  have ⟨_, hi⟩ := covered_of_scansInside h hc 1 le_rfl (by decide)
  rw [hr] at hi
  exact absurd hi (by decide +kernel)

section Reached

variable {w : World} {c : Cidr Ipv4Addr} {off : Nat}

theorem contains_hostAt_iff (h₁ : 1 ≤ c.bits) (h₂ : c.bits ≤ 32) (ho : off ≤ c.count) :
    c.Contains (hostAt c off) ↔ c.hostPart + off < c.count := by
  have hb : toU32 c.base / c.count * c.count + c.hostPart = toU32 c.base := Nat.div_add_mod' _ _
  have hn : c.next = toU32 c.base / c.count * c.count + c.count := Nat.succ_mul _ _
  have hle := Cidr.next_le h₂
  have hs : c.count ≤ 2 ^ 31 := Nat.pow_le_pow_right (by decide) (by omega)
  have hh : c.hostPart < c.count := Nat.mod_lt _ c.count_pos
  by_cases ha : toU32 c.base + off < 2 ^ 32
  case pos =>
    rw [hostAt, Cidr.contains_iff (Nat.le_add_right _ _) ha]
    omega
  case neg =>
    -- The number wraps around, and only the last block reaches that far.
    have hv : toU32 (hostAt c off) / c.count = 0 := by
      rw [hostAt, toU32_ipv4OfNat]
      exact Nat.div_eq_of_lt (by omega)
    have hq : 0 < toU32 c.base / c.count := Nat.div_pos (by omega) c.count_pos
    refine iff_of_false (fun hc => ?_) (by omega)
    rw [Cidr.Contains, hv] at hc
    omega

-- Some address of the block is among those that are looked for.
def Hits (w : World) (st : Strategy) (c : Cidr Ipv4Addr) : Prop :=
  ∃ ip ∈ w.hostsV4 st 0 c, c.Contains ip

theorem exists_mem_hosts_iff :
    (∃ ip ∈ (interleave ([c].mapIdx (w.hostsV4 st))).map IpAddr.v4, Inside [c] ip) ↔ Hits w st c := by
  constructor
  case mp =>
    rintro ⟨ip, hip, hin⟩
    obtain ⟨i, c', a, hi, ha, rfl⟩ := mem_hosts.mp hip
    obtain ⟨d, hd, hin⟩ := hin
    cases mem_singleton.mp hd
    rcases i with _ | i
    · cases hi
      exact ⟨a, ha, hin⟩
    · cases hi
  case mpr =>
    rintro ⟨a, ha, hin⟩
    exact ⟨.v4 a, mem_hosts.mpr ⟨0, c, a, rfl, ha, rfl⟩, c, mem_singleton_self c, hin⟩

theorem reach_pos_iff : 1 ≤ reach true c ↔ 20 ≤ c.bits ∧ c.bits ≤ 30 := by
  have hp (h : c.bits ≤ 30) : 2 ^ 2 ≤ c.count := Nat.pow_le_pow_right (by decide) (by omega)
  have hp' (h : 31 ≤ c.bits) : c.count ≤ 2 ^ 1 := Nat.pow_le_pow_right (by decide) (by omega)
  simp only [reach, if_true]
  split <;> omega

theorem hits_full_iff (hf : st.fullSubnet = true) (hb : c.bits ≤ 32) :
    Hits w st c ↔ c.bits = 32 ∨ (20 ≤ c.bits ∧ c.bits ≤ 30) ∧ c.hostPart + 1 < c.count := by
  have hw : w.hostsV4 st 0 c = Scan.enumerateCidrV4 c := by simp [World.hostsV4, hf]
  rw [Hits, hw]
  by_cases h₀ : c.bits = 32
  case pos =>
    refine iff_of_true ⟨c.base, ?_, c.contains_base⟩ (.inl h₀)
    rw [enumerateCidrV4_eq (by omega)]
    exact mem_singleton_self _
  case neg =>
    rw [or_iff_right h₀, ← reach_pos_iff]
    constructor
    case mp =>
      rintro ⟨ip, hip, hin⟩
      obtain ⟨off, h₁, h₂, rfl⟩ := (mem_enumerateCidrV4_iff (by omega)).mp hip
      have hr := h₁.trans h₂
      have hbits := reach_pos_iff.mp hr
      have ho : off ≤ c.count := by
        simp only [reach, if_true] at h₂
        split at h₂ <;> omega
      have := (contains_hostAt_iff (by omega) hb ho).mp hin
      exact ⟨hr, by omega⟩
    case mpr =>
      rintro ⟨hr, h⟩
      have hbits := reach_pos_iff.mp hr
      exact ⟨hostAt c 1, mem_enumerateCidrV4 le_rfl hr, (contains_hostAt_iff (by omega) hb c.count_pos).mpr h⟩

theorem size_eq (h : 1 ≤ c.bits) : size c = c.count := by
  rw [size, if_neg (by omega), Cidr.count]

theorem contains_of_bits_eq_zero (h : c.bits = 0) (ip : Ipv4Addr) : c.Contains ip := by
  rw [Cidr.Contains, Cidr.count, h, Nat.div_eq_of_lt (toU32_lt ip), Nat.div_eq_of_lt (toU32_lt c.base)]

theorem length_le_of_not_contains {offs : List Nat} {n : Nat} (hd : Drawn c n offs) (h₁ : 1 ≤ c.bits) (h₂ : c.bits ≤ 32)
    (h : ∀ off ∈ offs, ¬ c.Contains (hostAt c off)) : offs.length ≤ c.hostPart - 1 := by
  have hh : c.hostPart < c.count := Nat.mod_lt _ c.count_pos
  have hs : offs.toFinset ⊆ Finset.Ico (c.count - c.hostPart) (c.count - 1) := by
    intro off ho
    have ho := mem_toFinset.mp ho
    have ⟨hb, hb'⟩ := hd.bounds off ho
    rw [size_eq h₁] at hb'
    have hn := h off ho
    rw [contains_hostAt_iff h₁ h₂ (by omega)] at hn
    exact Finset.mem_Ico.mpr ⟨by omega, by omega⟩
  have hc := Finset.card_le_card hs
  rw [toFinset_card_of_nodup hd.nodup, Nat.card_Ico] at hc
  omega

-- The largest of the offsets are the ones that lead out of a block first.
def largest (c : Cidr Ipv4Addr) (n : Nat) : List Nat :=
  List.range' (size c - 1 - wanted c n) (wanted c n)

theorem drawn_largest (c : Cidr Ipv4Addr) (n : Nat) (hs : 2 < size c) : Drawn c n (largest c n) := by
  have := wanted_le c n
  exact drawn_range' (by omega) (by omega)

theorem hits_sample_iff (hf : st.fullSubnet = false) (hn : 0 < st.samplePerCidr)
    (hn' : st.samplePerCidr < 2 ^ 32) (hb : c.bits ≤ 32) :
    (∀ w : World, w.Samples → Hits w st c) ↔
      31 ≤ c.bits ∨ c.bits = 0 ∨ c.hostPart ≤ min st.samplePerCidr (c.count - 2) := by
  have hw (w : World) : w.hostsV4 st 0 c = w.sampleCidrV4 0 c st.samplePerCidr := by simp [World.hostsV4, hf]
  simp only [Hits, hw]
  have hcount (h : c.bits ≤ 30) : 2 ^ 2 ≤ c.count := Nat.pow_le_pow_right (by decide) (by omega)
  constructor
  case mp =>
    intro h
    by_contra hne
    have ⟨h₃₁, h₀, hh⟩ : ¬ 31 ≤ c.bits ∧ ¬ c.bits = 0 ∧ ¬ c.hostPart ≤ min st.samplePerCidr (c.count - 2) := by
      simpa only [not_or] using hne
    have hc := hcount (by omega)
    have hsize := size_eq (c := c) (by omega)
    obtain ⟨ip, hip, hin⟩ := h _ (World.samples_drawing drawn_largest)
    simp only [World.drawing] at hip
    rw [if_neg (by omega)] at hip
    obtain ⟨off, ho, rfl⟩ := mem_map.mp hip
    have hwant : wanted c st.samplePerCidr = min st.samplePerCidr (c.count - 2) := by
      rw [wanted, hsize, Nat.mod_eq_of_lt hn']
    have hle := wanted_le c st.samplePerCidr
    have ho := mem_range'_1.mp ho
    have := (contains_hostAt_iff (by omega) hb (by omega)).mp hin
    omega
  case mpr =>
    intro h w hs
    have hd := hs 0 c st.samplePerCidr
    by_cases hsz : size c ≤ 2
    case pos =>
      obtain ⟨draws, hg⟩ := hd
      refine ⟨c.base, ?_, c.contains_base⟩
      rw [Option.some_inj.mp (hg.unique (sampleCidrV4_of_le hsz draws _))]
      exact mem_singleton_self _
    case neg =>
      obtain ⟨offs, ho, he⟩ := (exists_draws_iff (by omega) _ _).mp hd
      rw [he]
      by_contra hne
      have hall : ∀ off ∈ offs, ¬ c.Contains (hostAt c off) := fun off hm hin => hne ⟨_, mem_map_of_mem hm, hin⟩
      have hwant := ho.length
      rw [wanted, Nat.mod_eq_of_lt hn'] at hwant
      by_cases h₀ : c.bits = 0
      case pos =>
        have ⟨off, hm⟩ := exists_mem_of_length_pos (l := offs) (by omega)
        exact hall off hm (contains_of_bits_eq_zero h₀ _)
      case neg =>
        have hsize := size_eq (c := c) (by omega)
        have hle := length_le_of_not_contains ho (by omega) hb hall
        have hbits : c.bits ≤ 30 := by
          by_contra hbits
          have : c.count ≤ 2 ^ 1 := Nat.pow_le_pow_right (by decide) (by omega)
          omega
        omega

end Reached

-- A range that is scanned on its own has a candidate in its block, whatever is drawn.
def Scanned (mode : ScanMode) (c : Cidr Ipv4Addr) : Prop :=
  ∀ w : World, w.Samples → ∀ ports,
    (∃ a ∈ manualMasqueCandidates w mode.strategy ports [c], Inside [c] a.ip) ∧
      ∃ a ∈ manualWgCandidates w mode.wgStrategy ports [c] [], Inside [c] a.ip

-- When all hosts are listed, a range must have some and not too many, and one of them must come after
-- the address that is written. When hosts are drawn, there must be enough of them.
def Reached (mode : ScanMode) (c : Cidr Ipv4Addr) : Prop :=
  if mode = .thorough then c.bits = 32 ∨ (20 ≤ c.bits ∧ c.bits ≤ 30) ∧ c.hostPart + 1 < c.count
  else 31 ≤ c.bits ∨ c.bits = 0 ∨ c.hostPart ≤ min mode.wgStrategy.samplePerCidr (c.count - 2)

theorem scanned_iff_hits (mode : ScanMode) (c : Cidr Ipv4Addr) :
    Scanned mode c ↔ ∀ w : World, w.Samples → Hits w mode.strategy c ∧ Hits w mode.wgStrategy.toStrategy c := by
  simp only [← exists_mem_hosts_iff]
  refine forall₂_congr fun w hw => ⟨fun h => ?_, fun h ports => ?_⟩
  · obtain ⟨⟨a, ha, hin⟩, b, hb, hin'⟩ := h []
    exact ⟨⟨a.ip, (mem_manualMasqueCandidates []).mp ⟨a, ha, rfl⟩, hin⟩, b.ip, mem_manualWgCandidates hb, hin'⟩
  · obtain ⟨⟨ip, hip, hin⟩, ip', hip', hin'⟩ := h
    obtain ⟨a, ha, rfl⟩ := (mem_manualMasqueCandidates ports).mpr hip
    obtain ⟨b, hb, rfl⟩ := exists_mem_pushCandidates (if ports = [] then [2408] else ports) mode.wgStrategy hip'
    exact ⟨⟨a, ha, hin⟩, b, hb, hin'⟩

theorem samplePerCidr_le {mode : ScanMode} (h : mode ≠ .thorough) :
    0 < mode.wgStrategy.samplePerCidr ∧ mode.wgStrategy.samplePerCidr ≤ mode.strategy.samplePerCidr ∧
      mode.strategy.samplePerCidr < 2 ^ 32 := by
  revert h
  cases mode <;> decide

theorem scanned_iff (h : appNormalizeCidrV4 raw = some c) (mode : ScanMode) : Scanned mode c ↔ Reached mode c := by
  have hb := bits_le_of_appNormalizeCidrV4 h
  have ⟨hm, hw⟩ := strategy_fullSubnet mode
  rw [scanned_iff_hits, Reached]
  split
  case isTrue ht =>
    rw [decide_eq_true ht] at hm hw
    simp only [hits_full_iff hm hb, hits_full_iff hw hb, and_self]
    exact ⟨fun h => h _ (World.samples_drawing drawn_largest), fun h _ _ => h⟩
  case isFalse ht =>
    rw [decide_eq_false ht] at hm hw
    obtain ⟨hn, hle, hlt⟩ := samplePerCidr_le ht
    have hwg := hits_sample_iff (c := c) hw hn (by omega) hb
    have hmq := hits_sample_iff (c := c) hm (by omega) hlt hb
    constructor
    case mp => exact fun h => hwg.mp fun w hs => (h w hs).2
    case mpr =>
      intro h w hs
      refine ⟨hmq.mpr (h.imp_right (Or.imp_right fun hh => ?_)) w hs, hwg.mpr h w hs⟩
      omega

theorem scanned_iff_bare_address : appNormalizeCidrV4 "188.114.96.7".toList = some ⟨.new 188 114 96 7, 32⟩ ∧
      (Scanned .thorough ⟨.new 188 114 96 7, 32⟩ ↔ Reached .thorough ⟨.new 188 114 96 7, 32⟩) :=
  ⟨by decide +kernel, scanned_iff (show appNormalizeCidrV4 "188.114.96.7".toList = _ by decide +kernel) .thorough⟩

-- A range of two addresses has none between its first and its last one.
theorem not_scanned : appNormalizeCidrV4 "188.114.96.0/31".toList = some ⟨.new 188 114 96 0, 31⟩ ∧
      ¬ Scanned .thorough ⟨.new 188 114 96 0, 31⟩ := by
  refine ⟨by decide +kernel, fun h => ?_⟩
  have hh := (scanned_iff_hits .thorough _).mp h _ (World.samples_drawing drawn_largest)
  rw [hits_full_iff rfl (by decide)] at hh
  exact absurd hh.1 (by decide)

end Engine.Scan
