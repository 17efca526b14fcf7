import SoildTunnel.Engine.RangeCode
import SoildTunnel.Rust.Pattern

-- What the code makes of a range: which addresses come out, and when a number overflows.
namespace Engine.RangeCode

open Rust Scan Checked Distinct List Nat

section Numbers

theorem toU32_new (w x y z : UInt8) :
    toU32 (.new w x y z) = ((w.toNat * 256 + x.toNat) * 256 + y.toNat) * 256 + z.toNat := by
  simp [toU32, Octets.bigEndian, Ipv4Addr.new]

theorem exists_eq_new (ip : Ipv4Addr) : ∃ w x y z, ip = .new w x y z :=
  ⟨ip[0], ip[1], ip[2], ip[3], by ext i hi; rcases i with _ | _ | _ | _ | i <;> first | rfl | omega⟩

theorem toU32_lt (ip : Ipv4Addr) : toU32 ip < 2 ^ 32 := by
  obtain ⟨w, x, y, z, rfl⟩ := exists_eq_new ip
  have := w.toNat_lt
  have := x.toNat_lt
  have := y.toNat_lt
  have := z.toNat_lt
  rw [toU32_new]
  omega

theorem toU32_ipv4OfNat (n : Nat) : toU32 (ipv4OfNat n) = n % 2 ^ 32 := by
  simp only [ipv4OfNat, toU32_new, UInt8.toNat_ofNat']
  omega

theorem ipv4OfNat_toU32 (ip : Ipv4Addr) : ipv4OfNat (toU32 ip) = ip := by
  obtain ⟨w, x, y, z, rfl⟩ := exists_eq_new ip
  have hw := w.toNat_lt
  have hx := x.toNat_lt
  have hy := y.toNat_lt
  have hz := z.toNat_lt
  have h {n : Nat} {b : UInt8} (h : n % 256 = b.toNat) : UInt8.ofNat n = b := UInt8.toNat.inj (by rw [UInt8.toNat_ofNat', h])
  rw [toU32_new, ipv4OfNat, h (b := w) (by omega), h (b := x) (by omega), h (b := y) (by omega), h (b := z) (by omega)]

theorem toU32_inj {ip ip' : Ipv4Addr} (h : toU32 ip = toU32 ip') : ip = ip' := by
  rw [← ipv4OfNat_toU32 ip, h, ipv4OfNat_toU32]

theorem ipv4OfNat_mod (n : Nat) : ipv4OfNat (n % 2 ^ 32) = ipv4OfNat n :=
  toU32_inj (by rw [toU32_ipv4OfNat, toU32_ipv4OfNat, mod_mod])

end Numbers

variable {b : Build}

theorem gives_addU32 {x y : Nat} (h : b = .release ∨ x + y < 2 ^ 32) : Gives (b.addU32 x y) (some ((x + y) % 2 ^ 32)) := by
  cases b
  case release => exact gives_pure _
  case debug =>
    have hlt : x + y < 2 ^ 32 := h.resolve_left nofun
    rw [mod_eq_of_lt hlt]
    exact gives_add hlt

theorem lt_of_gives_addU32 {x y : Nat} {o : Option Nat} (h : Gives (Build.addU32 x y .debug) o) : x + y < 2 ^ 32 := by
  by_contra hn
  rw [Build.addU32, Checked.add, if_neg hn] at h
  cases h

theorem not_gives_addU32_none {x y : Nat} : ¬ Gives (b.addU32 x y) none := by
  intro h
  cases b
  case release => cases h
  case debug => cases h.unique (gives_add (lt_of_gives_addU32 h))

theorem gives_shlOne {n : Nat} (h : n < 32) : Gives (b.shlOne n) (some (2 ^ n)) := by
  cases b
  case release => rw [Build.shlOne, mod_eq_of_lt h]; exact gives_pure _
  case debug => rw [Build.shlOne, if_pos h]; exact gives_pure _

-- The address at a distance from the one that is written.
def hostAt (c : Cidr Ipv4Addr) (off : Nat) : Ipv4Addr :=
  ipv4OfNat (toU32 c.base + off)

section Host

variable {c : Cidr Ipv4Addr} {off : Nat}

theorem gives_hostAt (h : b = .release ∨ toU32 c.base + off < 2 ^ 32) :
    Gives (b.addU32 (toU32 c.base) off >>= fun a => pure (ipv4OfNat a)) (some (hostAt c off)) := by
  rw [hostAt, ← ipv4OfNat_mod]
  exact (gives_addU32 h).bind (gives_pure _)

theorem lt_of_gives_hostAt {o : Option Ipv4Addr}
    (h : Gives (Build.addU32 (toU32 c.base) off .debug >>= fun a => pure (ipv4OfNat a)) o) : toU32 c.base + off < 2 ^ 32 := by
  obtain hn | ⟨a, ha, -⟩ := h.bind_cases
  · exact lt_of_gives_addU32 hn
  · exact lt_of_gives_addU32 ha

theorem not_gives_hostAt_none : ¬ Gives (b.addU32 (toU32 c.base) off >>= fun a => pure (ipv4OfNat a)) none := by
  intro h
  obtain hn | ⟨a, -, ha⟩ := h.bind_cases
  · exact not_gives_addU32_none hn
  · cases ha

end Host

theorem gives_enumerateCidrV4 {c : Cidr Ipv4Addr}
    (h : b = .release ∨ (32 - c.bits ≤ 12 → ∀ off ≤ 2 ^ (32 - c.bits) - 2, toU32 c.base + off < 2 ^ 32)) :
    Gives (enumerateCidrV4 b c) (some (Scan.enumerateCidrV4 c)) := by
  simp only [enumerateCidrV4, Scan.enumerateCidrV4]
  split
  case isTrue => exact gives_pure _
  case isFalse h₀ =>
    split
    case isTrue => exact gives_pure _
    case isFalse h₁ =>
      refine (gives_shlOne (by omega)).bind (gives_mapM fun off ho => ?_)
      have ho := mem_range'_1.mp ho
      exact gives_hostAt (h.imp_right fun h => h (by omega) off (by omega))

theorem lt_of_gives_enumerateCidrV4 {c : Cidr Ipv4Addr} {o : Option (List Ipv4Addr)} (h : Gives (enumerateCidrV4 .debug c) o)
    {off : Nat} (hb : 32 - c.bits ≤ 12) (h₁ : 1 ≤ off) (h₂ : off ≤ 2 ^ (32 - c.bits) - 2) : toU32 c.base + off < 2 ^ 32 := by
  have h₀ : 32 - c.bits ≠ 0 := by
    intro h₀
    rw [h₀] at h₂
    omega
  simp only [enumerateCidrV4] at h
  rw [if_neg h₀, if_neg (by omega)] at h
  obtain hn | ⟨size, hs, h⟩ := h.bind_cases
  · cases hn.unique (gives_shlOne (by omega))
  · cases hs.unique (gives_shlOne (by omega))
    obtain ⟨y, hy⟩ := h.of_mapM (fun _ _ => not_gives_hostAt_none) off (mem_range'_1.mpr ⟨h₁, by omega⟩)
    exact lt_of_gives_hostAt hy

section Loop

variable {c : Cidr Ipv4Addr} {usable : Nat}

-- The offsets that the numbers stand for.
def offsets (usable : Nat) (draws : List Nat) : List Nat :=
  draws.map fun d => 1 + d % usable

theorem gives_drawHosts (want : Nat) (hu : 0 < usable) (hu' : usable < 2 ^ 32 - 1)
    (h : b = .release ∨ ∀ off ≤ usable, toU32 c.base + off < 2 ^ 32) (chosen : List Nat) (out : List Ipv4Addr)
    (draws : List Nat) :
    Gives (drawHosts b (toU32 c.base) usable want chosen out draws)
      (let offs := distinctAfter id chosen (offsets usable draws)
      if want ≤ out.length + offs.length then some (out ++ (offs.take (want - out.length)).map (hostAt c)) else none) := by
  induction draws generalizing chosen out
  case nil =>
    rw [drawHosts]
    simp only [offsets, map_nil, distinctAfter, length_nil, add_zero, take_nil, append_nil]
    split
    case isTrue hw => rw [if_neg (by omega)]; exact gives_failure
    case isFalse hw => rw [if_pos (by omega)]; exact gives_pure _
  case cons d draws ih =>
    rw [drawHosts]
    split
    case isFalse hw =>
      have hz : want - out.length = 0 := by omega
      simp only [hz, List.take_zero, map_nil, append_nil]
      rw [if_pos (by omega)]
      exact gives_pure _
    case isTrue hw =>
      have hd : d % usable < usable := mod_lt d hu
      have ho : (1 + d % usable) % 2 ^ 32 = 1 + d % usable := mod_eq_of_lt (by omega)
      have hoff := gives_addU32 (b := b) (x := 1) (y := d % usable) (.inr (by omega))
      rw [ho] at hoff
      refine hoff.bind ?_
      simp only [offsets, map_cons, distinctAfter, id]
      split
      case isTrue => exact ih chosen out
      case isFalse =>
        refine (gives_addU32 (h.imp_right fun h => h _ (by omega))).bind ?_
        have hi := ih ((1 + d % usable) :: chosen) (out ++ [hostAt c (1 + d % usable)])
        have ht : want - out.length = want - (out.length + 1) + 1 := by omega
        simp only [length_append, length_singleton, append_assoc, singleton_append] at hi
        rw [add_right_comm] at hi
        rw [ipv4OfNat_mod, ht, length_cons, take_succ_cons]
        exact hi

-- The size of a range as the code takes it, and how many offsets there are to draw from.
def size (c : Cidr Ipv4Addr) : Nat :=
  if 32 ≤ 32 - c.bits then 2 ^ 32 - 1 else 2 ^ (32 - c.bits)

theorem size_lt (c : Cidr Ipv4Addr) : size c < 2 ^ 32 := by
  unfold size
  split
  case isTrue => decide
  case isFalse => exact Nat.pow_lt_pow_right (by decide) (by omega)

theorem gives_rangeSize : Gives (rangeSize b (32 - c.bits)) (some (size c)) := by
  unfold size rangeSize
  split
  case isTrue => exact gives_pure _
  case isFalse => exact gives_shlOne (by omega)

def wanted (c : Cidr Ipv4Addr) (n : Nat) : Nat :=
  min (n % 2 ^ 32) (size c - 2)

structure Drawn (c : Cidr Ipv4Addr) (n : Nat) (offs : List Nat) : Prop where
  nodup : offs.Nodup
  bounds : ∀ off ∈ offs, 1 ≤ off ∧ off ≤ size c - 2
  length : offs.length = wanted c n

theorem sampleCidrV4_of_le (h : size c ≤ 2) (draws : List Nat) (n : Nat) :
    Gives (sampleCidrV4 b draws c n) (some [c.base]) := by
  rw [sampleCidrV4]
  refine gives_rangeSize.bind ?_
  rw [if_pos h]
  exact gives_pure _

theorem gives_sampleCidrV4 (hs : 2 < size c) (h : b = .release ∨ ∀ off ≤ size c - 2, toU32 c.base + off < 2 ^ 32)
    (draws : List Nat) (n : Nat) :
    Gives (sampleCidrV4 b draws c n)
      (let offs := distinct (offsets (size c - 2) draws)
      if wanted c n ≤ offs.length then some ((offs.take (wanted c n)).map (hostAt c)) else none) := by
  have hlt := size_lt c
  have hd := gives_drawHosts (wanted c n) (by omega) (by omega) h [] [] draws
  simp only [length_nil, zero_add, nil_append] at hd
  rw [sampleCidrV4]
  refine gives_rangeSize.bind ?_
  rw [if_neg (by omega)]
  exact hd

theorem mem_offsets {draws : List Nat} {off : Nat} (hu : 0 < usable) (h : off ∈ offsets usable draws) : 1 ≤ off ∧ off ≤ usable := by
  obtain ⟨d, -, rfl⟩ := mem_map.mp h
  have := mod_lt d hu
  omega

theorem exists_draws_iff (hs : 2 < size c) (n : Nat) (hosts : List Ipv4Addr) :
    (∃ draws, Gives (sampleCidrV4 .release draws c n) (some hosts)) ↔ ∃ offs, Drawn c n offs ∧ hosts = offs.map (hostAt c) := by
  constructor
  case mp =>
    rintro ⟨draws, h⟩
    have hg := h.unique (gives_sampleCidrV4 hs (.inl rfl) draws n)
    dsimp only at hg
    split at hg
    case isFalse => cases hg
    case isTrue hw =>
      refine ⟨_, ⟨(nodup_distinct _).sublist (take_sublist _ _), fun off ho => ?_, ?_⟩, Option.some_inj.mp hg⟩
      · exact mem_offsets (by omega) (mem_distinct.mp (mem_of_mem_take ho))
      · rw [length_take, min_eq_left hw]
  case mpr =>
    rintro ⟨offs, hd, rfl⟩
    have ho : offsets (size c - 2) (offs.map (· - 1)) = offs := by
      rw [offsets, map_map, map_congr_left (g := id), map_id]
      intro off hm
      have ⟨h₁, h₂⟩ := hd.bounds off hm
      have hlt : off - 1 < size c - 2 := by omega
      simp only [Function.comp_apply, mod_eq_of_lt hlt, id]
      omega
    have hg := gives_sampleCidrV4 (b := .release) hs (.inl rfl) (offs.map (· - 1)) n
    have hdist : distinct offs = offs := distinctAfter_eq_self hd.nodup fun _ _ => not_mem_nil
    simp only [ho, hdist, ← hd.length, le_refl, if_true, take_length] at hg
    exact ⟨_, hg⟩

-- A debug build adds the first offset that is drawn, whatever comes after it.
theorem lt_of_gives_sampleCidrV4 (hs : 2 < size c) {n off : Nat} (hn : 0 < n % 2 ^ 32) (h₁ : 1 ≤ off) (h₂ : off ≤ size c - 2)
    {o : Option (List Ipv4Addr)} (h : Gives (sampleCidrV4 .debug [off - 1] c n) o) : toU32 c.base + off < 2 ^ 32 := by
  have hlt := size_lt c
  have hm : (off - 1) % (size c - 2) = off - 1 := mod_eq_of_lt (by omega)
  have ho : (1 + (off - 1)) % 2 ^ 32 = off := by omega
  have hw : ([] : List Ipv4Addr).length < min (n % 2 ^ 32) (size c - 2) := by simp; omega
  have hone := gives_addU32 (b := .debug) (x := 1) (y := off - 1) (.inr (by omega))
  rw [sampleCidrV4] at h
  obtain hn | ⟨s, hsize, h⟩ := h.bind_cases
  · cases hn.unique gives_rangeSize
  · cases hsize.unique gives_rangeSize
    rw [if_neg (by omega), drawHosts, if_pos hw, hm] at h
    obtain hn | ⟨x, hx, h⟩ := h.bind_cases
    · cases hn.unique hone
    · cases hx.unique hone
      rw [ho, if_neg not_mem_nil] at h
      obtain hn | ⟨a, ha, -⟩ := h.bind_cases
      · exact lt_of_gives_addU32 hn
      · exact lt_of_gives_addU32 ha

end Loop

end Engine.RangeCode
