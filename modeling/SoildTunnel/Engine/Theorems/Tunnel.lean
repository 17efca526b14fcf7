import SoildTunnel.Engine.Tunnel
import SoildTunnel.Engine.Netstack.Theorems.Tables

-- Which addresses the stack has after the edge's assignments have passed through the bridge.
namespace Engine

open List Option

namespace Netstack.State

variable {tier : Tier} {s s' : State tier}

theorem command_iface {c : Cmd} {connects : Bool} (h : s.command c connects = some s')
    (hc : Tunnel.isSetAddrs c = false) : s'.stack.iface = s.stack.iface := by
  have ⟨⟨stack, q⟩, hh, hs⟩ := map_eq_some_iff.mp h
  have hi : s'.stack.iface = stack.iface := by rw [← hs]
  rw [hi]
  cases c
  case openTcp dst resp =>
    cases connects <;> cases hh <;> rfl
  case openUdp resp =>
    cases hh
    rfl
  case setAddrs => cases hc

theorem command_isSome {c : Cmd} (hc : Tunnel.isSetAddrs c = false) (s : State tier)
    (connects : Bool) : ∃ s', s.command c connects = some s' := by
  cases c
  case openTcp dst resp => cases connects <;> exact ⟨_, rfl⟩
  case openUdp resp => exact ⟨_, rfl⟩
  case setAddrs => cases hc

theorem command_setAddrs_cases (s : State tier) (v4 : Option (Ipv4Addr × UInt8))
    (v6 : Option (Ipv6Addr × UInt8)) (connects : Bool) :
    s.command (.setAddrs v4 v6) connects = none ∧ applyAddrs s.stack.iface v4 v6 = none ∨
    ∃ s', s.command (.setAddrs v4 v6) connects = some s' ∧
      applyAddrs s.stack.iface v4 v6 = some s'.stack.iface := by
  cases ha : applyAddrs s.stack.iface v4 v6
  case none => exact .inl ⟨by simp [command, handleCmd, ha], rfl⟩
  case some iface =>
    have hh : handleCmd s.stack s.dataIn connects (.setAddrs v4 v6) =
        some ({ s.stack with iface }, s.dataIn) := by simp [handleCmd, ha]
    exact .inr ⟨_, by rw [command, hh]; rfl, rfl⟩

end Netstack.State

namespace Tunnel

open Masque Netstack

def v4? (a : AssignedAddr) : Option Ipv4Addr :=
  match a.ip with
  | .v4 ip => some ip
  | .v6 _ => none

def v6? (a : AssignedAddr) : Option Ipv6Addr :=
  match a.ip with
  | .v4 _ => none
  | .v6 ip => some ip

theorem assigned_bridgeCmd (a : AssignedAddr) : assigned (bridgeCmd a) = some a := by
  rcases a with ⟨ip | ip, p⟩ <;> rfl

theorem applyAddrs_bridgeCmd {a : AssignedAddr} {v4 : Option (Ipv4Addr × UInt8)}
    {v6 : Option (Ipv6Addr × UInt8)} (h : bridgeCmd a = .setAddrs v4 v6) (iface : Interface) :
    applyAddrs iface v4 v6 = none ∧ acceptable a.ip = false ∨
    ∃ iface', applyAddrs iface v4 v6 = some iface' ∧ acceptable a.ip = true ∧
      iface'.ipAddrs.map (·.address) = [a.ip] := by
  rcases a with ⟨ip | ip, p⟩ <;> cases h
  all_goals
    simp only [applyAddrs, cidrs, map_some, map_none, toList_some,
      toList_none, append_nil, nil_append, all_cons, all_nil, Bool.and_true]
    split
    case isTrue ha => exact .inr ⟨_, rfl, ha, rfl⟩
    case isFalse ha => exact .inl ⟨rfl, by simpa using ha⟩

namespace State

variable {tier : Tier} {s s' : State tier} {abi : Abi} {l : Label}

def latestV4 (s : State tier) : Option Ipv4Addr :=
  (s.processed.filterMap v4?).getLast?.or (s.v4.map (·.1))

def latestV6 (s : State tier) : Option Ipv6Addr :=
  (s.processed.filterMap v6?).getLast?.or (s.v6.map (·.1))

-- The interface has the latest address of each family.
def Addressed (s : State tier) : Prop :=
  ∃ n, s.net = some n ∧
    (∀ ip ∈ s.latestV4, .v4 ip ∈ n.stack.iface.ipAddrs.map (·.address)) ∧
    (∀ ip ∈ s.latestV6, .v6 ip ∈ n.stack.iface.ipAddrs.map (·.address))

-- The stack takes up an address that its library accepts, and no address of the other family was
-- assigned or configured.
def KeepsFamily (s : State tier) : Label → Prop
  | .command _ => ∀ a ∈ s.cmds.queue.head?.bind assigned, acceptable a.ip ∧
    match a.ip with
    | .v4 _ => s.latestV6 = none
    | .v6 _ => s.latestV4 = none
  | _ => True

-- Only the bridge task sets addresses.
def Bridged (s : State tier) : Prop :=
  ∀ c ∈ s.cmds.queue, isSetAddrs c → ∃ a, c = bridgeCmd a

theorem init_bridged (v4 : Option (Ipv4Addr × UInt8)) (v6 : Option (Ipv6Addr × UInt8)) :
    (init v4 v6 : State tier).Bridged :=
  fun _ hc => nomatch hc

-- A step either takes up the first command or leaves the interface and the record of the
-- addresses as they are.
inductive Move (s s' : State tier) : Label → Prop
  | command {n c cmds connects} : s.net = some n → s.cmds.recv = some (c, cmds) →
    s' = s.handle n cmds c connects → Move s s' (.command connects)
  | other {l'} : (∀ connects, l' ≠ .command connects) →
    s'.v4 = s.v4 → s'.v6 = s.v6 → s'.processed = s.processed →
    s'.net.map (·.stack.iface) = s.net.map (·.stack.iface) →
    (∀ c ∈ s'.cmds.queue, isSetAddrs c → c ∈ s.cmds.queue ∨ ∃ a, c = bridgeCmd a) → Move s s' l'

theorem step_move (h : s.step abi l = some s') : Move s s' l := by
  cases l <;> simp only [step] at h
  case body reads =>
    split at h
    case isTrue => cases h; exact .other nofun rfl rfl rfl rfl fun _ hc _ => .inl hc
    case isFalse => cases h
  case offer =>
    split at h
    case h_1 => cases h
    case h_2 => cases h; exact .other nofun rfl rfl rfl rfl fun _ hc _ => .inl hc
  case recv =>
    split at h
    case isTrue =>
      have ⟨_, _, he⟩ := map_eq_some_iff.mp h
      exact he ▸ .other nofun rfl rfl rfl rfl fun _ hc _ => .inl hc
    case isFalse => cases h
  case send =>
    have ⟨a, _, h⟩ := bind_eq_some_iff.mp h
    split at h
    case isTrue => cases h; exact .other nofun rfl rfl rfl rfl fun _ hc _ => .inl hc
    case isFalse =>
      have ⟨cmds, hq, he⟩ := map_eq_some_iff.mp h
      have ⟨_, _, hq, _⟩ := Mpsc.trySend_eq_some hq
      refine he ▸ .other nofun rfl rfl rfl rfl fun c hc _ => ?_
      simp only [hq, mem_append, mem_singleton] at hc
      exact hc.imp id fun hc => ⟨a, hc⟩
  case request c =>
    obtain ⟨hn, h⟩ := ite_none_left_eq_some.mp h
    have ⟨cmds, hq, he⟩ := map_eq_some_iff.mp h
    have ⟨_, _, hq, _⟩ := Mpsc.trySend_eq_some hq
    refine he ▸ .other nofun rfl rfl rfl rfl fun c' hc hs => ?_
    simp only [hq, mem_append, mem_singleton] at hc
    exact hc.imp id fun hc => absurd (hc ▸ hs) hn
  case command connects =>
    have ⟨n, hn, h⟩ := bind_eq_some_iff.mp h
    split at h
    case isTrue =>
      have ⟨⟨c, cmds⟩, hq, he⟩ := map_eq_some_iff.mp h
      exact .command hn hq he.symm
    case isFalse => cases h
  case net l =>
    obtain ⟨hl, h⟩ := ite_none_left_eq_some.mp h
    have ⟨n, hn, h⟩ := bind_eq_some_iff.mp h
    have ⟨n', hs, he⟩ := map_eq_some_iff.mp h
    have hi : n'.stack.iface = n.stack.iface := by
      rcases Netstack.State.step_keeps hs with ⟨c, connects, rfl, _⟩ | ⟨_, hk⟩
      · exact absurd rfl hl
      · exact hk.upkeep.iface
    refine he ▸ .other nofun rfl rfl rfl ?_ fun _ hc _ => .inl hc
    simp [hn, hi]

theorem Move.bridged (h : Move s s' l) (hb : s.Bridged) : s'.Bridged := by
  cases h
  case command n c cmds connects hn hq hs =>
    have ⟨hq, _⟩ := Mpsc.recv_eq_some hq
    intro c' hc'
    have hm : c' ∈ cmds.queue := by
      subst hs
      unfold handle at hc'
      split at hc'
      case h_1 => exact hc'
      case h_2 => simp [Mpsc.dropReceiver] at hc'
    exact hb c' (hq ▸ mem_cons_of_mem _ hm)
  case other h4 h6 hp hi hq hl =>
    intro c hc hs
    rcases hq c hc hs with hc | ha
    · exact hb c hc hs
    · exact ha

theorem Move.addressed (h : Move s s' l) (hm : ∀ connects, l ≠ .command connects)
    (ha : s.Addressed) : s'.Addressed := by
  cases h
  case command => exact absurd rfl (hm _)
  case other h4 h6 hp hi hq hl =>
    have ⟨n, hn, ha4, ha6⟩ := ha
    rw [hn] at hi
    have ⟨n', hn', hi⟩ := map_eq_some_iff.mp hi
    refine ⟨n', hn', ?_, ?_⟩
    · rw [hi, latestV4, hp, h4]
      exact ha4
    · rw [hi, latestV6, hp, h6]
      exact ha6

theorem latestV4_append (a : AssignedAddr) :
    latestV4 { s with processed := s.processed ++ [a] } = (v4? a).or s.latestV4 := by
  cases h : v4? a <;> simp [latestV4, h]

theorem latestV6_append (a : AssignedAddr) :
    latestV6 { s with processed := s.processed ++ [a] } = (v6? a).or s.latestV6 := by
  cases h : v6? a <;> simp [latestV6, h]

theorem handle_bridgeCmd (n : Netstack.State tier) (cmds : Mpsc Cmd 256) (a : AssignedAddr) (connects : Bool) :
    (s.handle n cmds (bridgeCmd a) connects).net = none ∧ acceptable a.ip = false ∨
    ∃ n', s.handle n cmds (bridgeCmd a) connects =
        { s with cmds, net := some n', processed := s.processed ++ [a] } ∧
      acceptable a.ip = true ∧ n'.stack.iface.ipAddrs.map (·.address) = [a.ip] := by
  have ⟨v4, v6, hc⟩ : ∃ v4 v6, bridgeCmd a = .setAddrs v4 v6 := by
    rcases a with ⟨ip | ip, p⟩ <;> exact ⟨_, _, rfl⟩
  have hp : assigned (.setAddrs v4 v6) = some a := hc ▸ assigned_bridgeCmd a
  rw [handle, hc]
  rcases n.command_setAddrs_cases v4 v6 connects with ⟨hn, ha⟩ | ⟨n', hn, ha⟩
  case inl =>
    rw [hn]
    rcases applyAddrs_bridgeCmd hc n.stack.iface with ⟨_, hf⟩ | ⟨_, hs, _⟩
    · exact .inl ⟨rfl, hf⟩
    · cases ha.symm.trans hs
  case inr =>
    rw [hn]
    rcases applyAddrs_bridgeCmd hc n.stack.iface with ⟨hs, _⟩ | ⟨iface, hs, hacc, hi⟩
    · cases ha.symm.trans hs
    · cases ha.symm.trans hs
      exact .inr ⟨n', by simp [hp], hacc, hi⟩

theorem handle_addressed_iff (n : Netstack.State tier) (cmds : Mpsc Cmd 256) (a : AssignedAddr) (connects : Bool) :
    (s.handle n cmds (bridgeCmd a) connects).Addressed ↔ acceptable a.ip ∧
      match a.ip with
      | .v4 _ => s.latestV6 = none
      | .v6 _ => s.latestV4 = none := by
  rcases handle_bridgeCmd (s := s) n cmds a connects with ⟨hn, ha⟩ | ⟨n', hs, ha, hi⟩
  case inl =>
    refine iff_of_false ?_ fun h => by simp [ha] at h
    intro ⟨_, hn', _⟩
    cases hn.symm.trans hn'
  case inr =>
    have h4 := latestV4_append (s := { s with cmds, net := some n' }) a
    have h6 := latestV6_append (s := { s with cmds, net := some n' }) a
    have hs' : (s.handle n cmds (bridgeCmd a) connects).Addressed ↔
        (∀ ip ∈ (v4? a).or s.latestV4, .v4 ip ∈ [a.ip]) ∧ (∀ ip ∈ (v6? a).or s.latestV6, .v6 ip ∈ [a.ip]) := by
      rw [hs, Addressed, h4, h6]
      simp only [Option.some.injEq, exists_eq_left', hi]
      rfl
    rw [hs', ha]
    rcases a with ⟨ip | ip, p⟩ <;> simp [v4?, v6?, eq_none_iff_forall_ne_some]

theorem step_addressed_iff (hb : s.Bridged) (ha : s.Addressed) (h : s.step abi l = some s') :
    s'.Addressed ↔ s.KeepsFamily l := by
  cases step_move h
  case other h4 h6 hp hi hq hl =>
    refine iff_of_true ((step_move h).addressed hl ha) ?_
    cases l
    case command connects => exact absurd rfl (hl connects)
    all_goals trivial
  case command n c cmds connects hn hq hs =>
    have ⟨hq, _⟩ := Mpsc.recv_eq_some hq
    subst hs
    cases hc : isSetAddrs c
    case true =>
      have ⟨a, ha⟩ := hb c (by simp [hq]) hc
      subst ha
      rw [handle_addressed_iff]
      simp [KeepsFamily, hq, assigned_bridgeCmd]
    case false =>
      have hasg : assigned c = none := by cases c <;> first | rfl | cases hc
      refine iff_of_true ?_ (by simp [KeepsFamily, hq, hasg])
      have ⟨n', hn'⟩ := Netstack.State.command_isSome hc n connects
      have ⟨n₀, hn₀, ha4, ha6⟩ := ha
      cases hn.symm.trans hn₀
      rw [handle, hn', hasg]
      refine ⟨n', rfl, ?_⟩
      rw [Netstack.State.command_iface hn' hc]
      simp only [toList_none, append_nil]
      exact ⟨ha4, ha6⟩

theorem init_addressed_iff (v4 : Option (Ipv4Addr × UInt8)) (v6 : Option (Ipv6Addr × UInt8)) :
    (init v4 v6 : State tier).Addressed ↔ (cidrs v4 v6).all (acceptable ·.address) := by
  unfold Addressed init applyAddrs
  split
  case isTrue h =>
    refine iff_of_true ⟨_, rfl, ?_, ?_⟩ h
    · simp [latestV4, Netstack.State.init, cidrs]
    · simp [latestV6, Netstack.State.init, cidrs]
  case isFalse h => simp [h]

-- The interface has the latest address of both families throughout a run exactly when the
-- library accepts all addresses and none of the other family is known whenever one is taken up.
theorem always_addressed_iff (abi : Abi) (v4 : Option (Ipv4Addr × UInt8))
    (v6 : Option (Ipv6Addr × UInt8)) (ls : List Label) :
    Lts.Always (step abi) Addressed (init v4 v6 : State tier) ls ↔
      (cidrs v4 v6).all (acceptable ·.address) ∧
        Lts.Admits (step abi) KeepsFamily (init v4 v6 : State tier) ls := by
  have hinit : (init v4 v6 : State tier).Addressed ↔ _ := init_addressed_iff v4 v6
  have hrun (h : (init v4 v6 : State tier).Addressed) :
      Lts.Always (step abi) Addressed (init v4 v6 : State tier) ls ↔
        Lts.Admits (step abi) KeepsFamily (init v4 v6 : State tier) ls := by
    refine Lts.always_iff_admits (I := Bridged) ?_ ?_ (init_bridged v4 v6) h
    · exact fun s l s' hb _ h _ => (step_move h).bridged hb
    · exact fun s l s' hb ha h => step_addressed_iff hb ha h
  rw [← hinit]
  constructor
  case mp => exact fun h => ⟨h.head, (hrun h.head).mp h⟩
  case mpr => exact fun ⟨h, ha⟩ => (hrun h).mpr ha

def configuredV4 : Ipv4Addr := .new 172 16 0 2

def configuredV6 : Ipv6Addr := .setLast .unspecified fun _ => 2

def assignV4 : List Label :=
  [.net (.endPoll []), .net (.endTcp []), .net .endUdp, .net .drain,
    .body [[1, 7, 0, 4, 172, 16, 0, 3, 32]], .offer, .recv, .send, .command true]

theorem not_always_addressed : ¬ Lts.Always (step .arm64) Addressed
      (init (some (configuredV4, 32)) (some (configuredV6, 128)) : State .low) assignV4 := by
  intro h
  have hx : (Lts.exec (step .arm64)
      (init (some (configuredV4, 32)) (some (configuredV6, 128)) : State .low) assignV4).any (fun s =>
        s.latestV6 = some configuredV6 &&
          s.net.all fun n => n.stack.iface.ipAddrs = [⟨.v4 (.new 172 16 0 3), 24⟩]) := by
    decide +kernel
  have ⟨s, hs, hl⟩ := (Option.any_eq_true ..).mp hx
  have ⟨n, hn, _, h6⟩ := h.last hs
  simp only [hn, Bool.and_eq_true, all_some, decide_eq_true_eq] at hl
  simpa [hl.right] using h6 configuredV6 hl.left

end State

end Tunnel

end Engine
