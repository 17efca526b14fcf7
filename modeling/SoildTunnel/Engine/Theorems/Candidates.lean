import SoildTunnel.Engine.Theorems.Scan

-- The lists of endpoints that the searches go through.
namespace Engine.Scan

open Rust Distinct List

theorem length_le_foldl_max {α : Type} {ls : List (List α)} {l : List α} (h : l ∈ ls) (n : Nat) :
    l.length ≤ (ls.map List.length).foldl max n := by
  have hi (ls : List (List α)) (n : Nat) : n ≤ (ls.map List.length).foldl max n := by
    induction ls generalizing n
    case nil => exact le_refl n
    case cons l ls ih => exact (le_max_left n l.length).trans (ih _)
  induction ls generalizing n
  case nil => cases h
  case cons k ls ih =>
    rcases mem_cons.mp h with rfl | h
    · exact (le_max_right n l.length).trans (hi ls _)
    · exact ih h _

theorem mem_interleave {α : Type} {ls : List (List α)} {a : α} : a ∈ interleave ls ↔ ∃ l ∈ ls, a ∈ l := by
  simp only [interleave, mem_flatMap, mem_range, mem_filterMap]
  constructor
  case mp =>
    rintro ⟨i, -, l, hl, ha⟩
    exact ⟨l, hl, mem_of_getElem? ha⟩
  case mpr =>
    rintro ⟨l, hl, ha⟩
    have ⟨i, hi, he⟩ := mem_iff_getElem.mp ha
    exact ⟨i, hi.trans_le (length_le_foldl_max hl 0), l, hl, he ▸ List.getElem?_eq_getElem hi⟩

section Masque

variable {w : World} {st : Strategy} {ports : List UInt16} {primary : UInt16} {a : SocketAddr} {ips : List IpAddr}

theorem mem_atOtherPorts : a ∈ atOtherPorts primary ports ips ↔ a.ip ∈ ips ∧ a.port ∈ ports ∧ a.port ≠ primary := by
  simp only [atOtherPorts, mem_flatMap, mem_map, mem_filter, decide_eq_true_eq, atPort]
  constructor
  case mp =>
    rintro ⟨ip, hip, port, ⟨hp, hn⟩, rfl⟩
    exact ⟨hip, hp, hn⟩
  case mpr =>
    rintro ⟨hip, hp, hn⟩
    exact ⟨a.ip, hip, a.port, ⟨hp, hn⟩, rfl⟩

theorem mem_map_atPort : a ∈ ips.map (atPort primary) ↔ a.ip ∈ ips ∧ a.port = primary := by
  simp only [mem_map, atPort]
  constructor
  case mp =>
    rintro ⟨ip, hip, rfl⟩
    exact ⟨hip, rfl⟩
  case mpr =>
    rintro ⟨hip, rfl⟩
    exact ⟨a.ip, hip, rfl⟩

-- Both ways to build the list come to this: some addresses at the first port, and then some at the others.
def sweep (primary : UInt16) (ports : List UInt16) (ips others : List IpAddr) : List SocketAddr :=
  distinct (ips.map (atPort primary) ++ atOtherPorts primary ports others)

theorem atOtherPorts_append (ips ips' : List IpAddr) :
    atOtherPorts primary ports (ips ++ ips') = atOtherPorts primary ports ips ++ atOtherPorts primary ports ips' :=
  flatMap_append

theorem exists_buildCandidates_eq (w : World) (st : Strategy) (ports : List UInt16) (ip : IpScan) :
    ∃ ips others, buildCandidates w st ports ip = sweep (ports.headD 443) ports ips others := by
  unfold buildCandidates
  split
  case h_1 => exact ⟨_, _, rfl⟩
  case h_2 =>
    dsimp only
    rw [append_assoc, ← atOtherPorts_append]
    exact ⟨_, _, rfl⟩

theorem mem_sweep {others : List IpAddr} : a ∈ sweep primary ports ips others ↔
    (a.ip ∈ ips ∧ a.port = primary) ∨ a.ip ∈ others ∧ a.port ∈ ports ∧ a.port ≠ primary := by
  rw [sweep, mem_distinct, mem_append, mem_map_atPort, mem_atOtherPorts]

end Masque

section WireGuard

variable {ports : List UInt16} {ips : List IpAddr} {a : SocketAddr}

theorem mem_rotatePorts (hp : ports ≠ []) {waves : Nat} (h : a ∈ rotatePorts waves ports ips) : a.ip ∈ ips ∧ a.port ∈ ports := by
  simp only [rotatePorts, mem_flatMap, mem_map] at h
  obtain ⟨wave, -, ⟨ip, i⟩, hi, rfl⟩ := h
  have hlt : (i + wave) % ports.length < ports.length := Nat.mod_lt _ (length_pos_of_ne_nil hp)
  refine ⟨(mem_zipIdx' hi).2 ▸ getElem_mem _, ?_⟩
  rw [getD_eq_getElem?_getD, List.getElem?_eq_getElem hlt, Option.getD_some]
  exact getElem_mem hlt

theorem mem_pushCandidates (hp : ports ≠ []) {st : WgStrategy} {excluded : List SocketAddr}
    (h : a ∈ pushCandidates st ports ips excluded) : a.ip ∈ ips ∧ a.port ∈ ports :=
  mem_rotatePorts hp (mem_filter.mp (mem_of_mem_distinctBy h)).1

theorem exists_mem_pushCandidates (ports : List UInt16) (st : WgStrategy) {ip : IpAddr} (h : ip ∈ ips) :
    ∃ a ∈ pushCandidates st ports ips [], a.ip = ip := by
  obtain ⟨i, hi, rfl⟩ := mem_iff_getElem.mp h
  refine ⟨⟨ips[i], ports.getD ((i + 0) % ports.length) 0⟩, ?_, rfl⟩
  refine mem_distinct.mpr (mem_filter.mpr ⟨?_, by simp⟩)
  simp only [rotatePorts, mem_flatMap, mem_map]
  refine ⟨0, mem_range.mpr (by omega), (ips[i], i), ?_, rfl⟩
  exact mk_mem_zipIdx_iff_getElem?.mpr (List.getElem?_eq_getElem hi)

end WireGuard

def portsOr (default : UInt16) (ports : List UInt16) : List UInt16 :=
  if ports = [] then [default] else ports

structure WellFormed (default : UInt16) (ports : List UInt16) (l : List SocketAddr) : Prop where
  nodup : l.Nodup
  ports : ∀ a ∈ l, a.port ∈ portsOr default ports

-- What is at the first port comes before all that is not.
def PrimaryFirst (default : UInt16) (ports : List UInt16) (l : List SocketAddr) : Prop :=
  l.Pairwise fun a b => b.port = ports.headD default → a.port = ports.headD default

theorem headD_mem_portsOr (default : UInt16) (ports : List UInt16) : ports.headD default ∈ portsOr default ports := by
  cases ports <;> simp [portsOr]

theorem mem_portsOr {default port : UInt16} {ports : List UInt16} (h : port ∈ ports) : port ∈ portsOr default ports := by
  rwa [portsOr, if_neg (ne_nil_of_mem h)]

theorem wellFormed_buildCandidates (w : World) (st : Strategy) (ports : List UInt16) (ip : IpScan) :
    WellFormed 443 ports (buildCandidates w st ports ip) := by
  obtain ⟨ips, others, he⟩ := exists_buildCandidates_eq w st ports ip
  rw [he]
  refine ⟨nodup_distinct _, fun a ha => ?_⟩
  rcases mem_sweep.mp ha with ⟨-, h⟩ | ⟨-, h, -⟩
  · exact h ▸ headD_mem_portsOr 443 ports
  · exact mem_portsOr h

theorem primaryFirst_buildCandidates (w : World) (st : Strategy) (ports : List UInt16) (ip : IpScan) :
    PrimaryFirst 443 ports (buildCandidates w st ports ip) := by
  obtain ⟨ips, others, he⟩ := exists_buildCandidates_eq w st ports ip
  rw [he]
  refine List.Pairwise.sublist (distinctAfter_sublist [] _) (pairwise_append.mpr ⟨?_, ?_, ?_⟩)
  · exact pairwise_of_forall_mem_list fun a ha b _ _ => (mem_map_atPort.mp ha).2
  · exact pairwise_of_forall_mem_list fun a _ b hb h => absurd h (mem_atOtherPorts.mp hb).2.2
  · exact fun a ha b _ _ => (mem_map_atPort.mp ha).2

theorem wellFormed_pushCandidates {ports ports' : List UInt16} (hp : ports' ≠ []) (hs : ∀ p ∈ ports', p ∈ portsOr 2408 ports)
    (st : WgStrategy) (ips : List IpAddr) (excluded : List SocketAddr) :
    WellFormed 2408 ports (pushCandidates st ports' ips excluded) :=
  ⟨nodup_distinct _, fun _ ha => hs _ (mem_pushCandidates hp ha).2⟩

theorem wgPorts (ports : List UInt16) : (if ports = [] then [2408] else distinct ports) ≠ [] ∧
      ∀ p ∈ if ports = [] then [2408] else distinct ports, p ∈ portsOr 2408 ports := by
  split
  case isTrue h => simp [portsOr, h]
  case isFalse h =>
    refine ⟨fun hd => ?_, fun p hp => mem_portsOr (mem_distinct.mp hp)⟩
    have ⟨p, hp⟩ := exists_mem_of_ne_nil ports h
    have hp' := mem_distinct.mpr hp
    rw [hd] at hp'
    cases hp'

theorem exists_buildWgCandidates_eq (w : World) (st : WgStrategy) (ports : List UInt16) (ip : IpScan)
    (excluded : List SocketAddr) :
    ∃ ports' ips, buildWgCandidates w st ports ip excluded = pushCandidates st ports' ips excluded ∧
      ports' ≠ [] ∧ ∀ p ∈ ports', p ∈ portsOr 2408 ports := by
  have hp := wgPorts ports
  unfold buildWgCandidates
  generalize (if ports = [] then [2408] else distinct ports) = ports' at hp ⊢
  dsimp only
  split
  case h_1 =>
    refine ⟨_, _, rfl, ?_⟩
    rwa [if_neg hp.1]
  case h_2 => exact ⟨_, _, rfl, hp⟩

theorem wellFormed_candidates (w : World) (st : Strategy) (wst : WgStrategy) (ports : List UInt16) (ip : IpScan)
    (excluded : List SocketAddr) :
    (WellFormed 443 ports (buildCandidates w st ports ip) ∧ PrimaryFirst 443 ports (buildCandidates w st ports ip)) ∧
      WellFormed 2408 ports (buildWgCandidates w wst ports ip excluded) ∧
      ∀ a ∈ buildWgCandidates w wst ports ip excluded, a ∉ excluded := by
  obtain ⟨ports', ips, he, hp, hs⟩ := exists_buildWgCandidates_eq w wst ports ip excluded
  rw [he]
  exact ⟨⟨wellFormed_buildCandidates w st ports ip, primaryFirst_buildCandidates w st ports ip⟩,
    wellFormed_pushCandidates hp hs wst ips excluded, fun _ => Search.not_mem_excluded_of_mem_pushCandidates⟩

end Engine.Scan
