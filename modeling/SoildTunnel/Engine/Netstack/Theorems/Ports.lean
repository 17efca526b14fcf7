import SoildTunnel.Engine.Netstack.Theorems.Tables

-- The local ports of the live sockets. The allocator counts through its range and starts again,
-- whichever ports are still in use.
namespace Engine.Netstack

open Nat Option Lts

variable {tier : Tier}

def PORTS : Nat := 65000 - 49152 + 1

def portAt (n : Nat) : Nat :=
  49152 + n % PORTS

theorem allocPort_portAt (n : Nat) : allocPort (portAt n) = portAt (n + 1) := by
  unfold allocPort portAt PORTS
  split <;> omega

theorem portAt_eq_iff {m n : Nat} (h : m ≤ n) : portAt m = portAt n ↔ PORTS ∣ n - m := by
  unfold portAt PORTS
  omega

namespace State

-- No two live UDP sockets have the same local port, and no two live TCP sockets to the same
-- endpoint.
def NoClash (s : State tier) : Prop :=
  ∀ ⦃h₁ h₂ a b⦄, s.stack.sockets.get? h₁ = some a → s.stack.sockets.get? h₂ = some b →
    a.binding = b.binding → h₁ = h₂

-- When a socket is opened, no live socket of its kind (and endpoint) got its port a whole number
-- of rounds of the allocator ago.
def FreshPort (s : State tier) : Label → Prop
  | .cmd (.openTcp dst _) true =>
    ∀ h socket, s.stack.sockets.get? h = some (.tcp socket) → socket.remote = dst →
      ¬ PORTS ∣ s.allocated - s.serial h
  | .cmd (.openUdp _) _ =>
    ∀ h socket, s.stack.sockets.get? h = some (.udp socket) → ¬ PORTS ∣ s.allocated - s.serial h
  | _ => True

structure PortsCount (s : State tier) : Prop where
  next : s.stack.nextPort = portAt s.allocated
  port {h a} : s.stack.sockets.get? h = some a → a.binding.2 = portAt (s.serial h)
  serial_lt {h a} : s.stack.sockets.get? h = some a → s.serial h < s.allocated

theorem init_portsCount (iface : Interface) : (init iface : State tier).PortsCount := by
  constructor <;> simp [init, portAt]

end State

theorem Upkeep.binding {s s' : NetStack tier} (h : Upkeep s s') {k : Nat} {a : Socket}
    (ha : s'.sockets.get? k = some a) : ∃ b, s.sockets.get? k = some b ∧ b.binding = a.binding := by
  cases h
  case keep | setTcp | setUdp => exact ⟨a, ha, rfl⟩
  case writeTcp he hh =>
    have ⟨hst, hs⟩ := entryOf_eq_some.mp he
    have hp := Slab.get?_put (hh.handle ▸ hs)
    simp only [writeEntry, hp] at ha
    split at ha
    case isTrue hk =>
      cases ha
      exact ⟨_, hk ▸ hh.handle ▸ hs, by simp [Socket.binding, hh.localPort, hh.remote]⟩
    case isFalse => exact ⟨a, ha, rfl⟩
  case eraseTcp he =>
    simp only [NetStack.eraseTcp, Slab.get?_remove] at ha
    obtain ⟨-, ha⟩ := ite_none_left_eq_some.mp ha
    exact ⟨a, ha, rfl⟩
  case writeUdp h hh hs hl =>
    have hp := Slab.get?_put (hh ▸ hs)
    simp only [Netstack.writeUdp, hp] at ha
    split at ha
    case isTrue hk =>
      cases ha
      exact ⟨_, hk ▸ hh ▸ hs, by simp [Socket.binding, hl]⟩
    case isFalse => exact ⟨a, ha, rfl⟩
  case eraseUdp =>
    simp only [NetStack.eraseUdp, Slab.get?_remove] at ha
    obtain ⟨-, ha⟩ := ite_none_left_eq_some.mp ha
    exact ⟨a, ha, rfl⟩

namespace State

theorem Keeps.portsCount {s s' : State tier} (h : s.Keeps s') (hi : s.PortsCount) : s'.PortsCount where
  next := by
    rw [h.upkeep.nextPort, h.allocated, hi.next]
  port ha := by
    have ⟨b, hb, he⟩ := h.upkeep.binding ha
    rw [← he, h.serial, hi.port hb]
  serial_lt ha := by
    have ⟨b, hb, _⟩ := h.upkeep.binding ha
    rw [h.serial, h.allocated]
    exact hi.serial_lt hb

theorem Keeps.noClash {s s' : State tier} (h : s.Keeps s') (hn : s.NoClash) : s'.NoClash := by
  intro h₁ h₂ a b ha hb he
  have ⟨a', ha', hae⟩ := h.upkeep.binding ha
  have ⟨b', hb', hbe⟩ := h.upkeep.binding hb
  exact hn ha' hb' (hae.trans <| he.trans hbe.symm)

-- What an opening adds: one socket in a free slot, with the next port.
structure Opens (s s' : State tier) (a : Socket) : Prop where
  port : a.binding.2 = s.stack.nextPort
  sockets : s'.stack.sockets = (s.stack.sockets.add a).1
  next : s'.stack.nextPort = allocPort s.stack.nextPort
  allocated : s'.allocated = s.allocated + 1
  serial h : s'.serial h = if h = (s.stack.sockets.add a).2 then s.allocated else s.serial h

namespace Opens

variable {s s' : State tier} {a : Socket}

theorem get?_eq (o : s.Opens s' a) (h : Nat) : s'.stack.sockets.get? h =
      if h = (s.stack.sockets.add a).2 then some a else s.stack.sockets.get? h := by
  rw [o.sockets, Slab.get?_add]

theorem portsCount (o : s.Opens s' a) (hi : s.PortsCount) : s'.PortsCount where
  next := by rw [o.next, hi.next, o.allocated, allocPort_portAt]
  port {h b} hb := by
    rw [o.get?_eq] at hb
    rw [o.serial]
    split at hb
    case isTrue he => cases hb; rw [if_pos he, o.port, hi.next]
    case isFalse he => rw [if_neg he, hi.port hb]
  serial_lt {h b} hb := by
    rw [o.get?_eq] at hb
    rw [o.serial, o.allocated]
    split at hb
    case isTrue he => rw [if_pos he]; omega
    case isFalse he => rw [if_neg he]; exact lt_succ_of_lt (hi.serial_lt hb)

theorem noClash_iff (o : s.Opens s' a) (hi : s.PortsCount) (hn : s.NoClash) :
    s'.NoClash ↔ ∀ h b, s.stack.sockets.get? h = some b → b.binding.1 = a.binding.1 →
      ¬ PORTS ∣ s.allocated - s.serial h := by
  have hf := s.stack.sockets.get?_add_handle a
  have hclash {h b} (hb : s.stack.sockets.get? h = some b) :
      b.binding.2 = a.binding.2 ↔ PORTS ∣ s.allocated - s.serial h := by
    rw [hi.port hb, o.port, hi.next]
    exact portAt_eq_iff (le_of_lt (hi.serial_lt hb))
  constructor
  case mp =>
    intro hc h b hb he hd
    have hne : h ≠ (s.stack.sockets.add a).2 := by rintro rfl; simp [hf] at hb
    refine hne <| hc (a := b) (b := a) ?_ ?_ (Prod.ext he ((hclash hb).mpr hd))
    · rw [o.get?_eq, if_neg hne, hb]
    · rw [o.get?_eq, if_pos rfl]
  case mpr =>
    intro hc h₁ h₂ b₁ b₂ hb₁ hb₂ he
    rw [o.get?_eq] at hb₁ hb₂
    split at hb₁ <;> split at hb₂
    case isTrue.isTrue e₁ e₂ => exact e₁.trans e₂.symm
    case isTrue.isFalse =>
      cases hb₁
      exact absurd ((hclash hb₂).mp (congrArg Prod.snd he).symm) (hc _ _ hb₂ (congrArg Prod.fst he).symm)
    case isFalse.isTrue =>
      cases hb₂
      exact absurd ((hclash hb₁).mp (congrArg Prod.snd he)) (hc _ _ hb₁ (congrArg Prod.fst he))
    case isFalse.isFalse => exact hn hb₁ hb₂ he

end Opens

-- A command that opens nothing: a refused connect uses up a port, a change of address does not.
structure Passes (s s' : State tier) (ports : Nat) : Prop where
  sockets : s'.stack.sockets = s.stack.sockets
  next : s'.stack.nextPort = if ports = 0 then s.stack.nextPort else allocPort s.stack.nextPort
  ports_le : ports ≤ 1
  allocated : s'.allocated = s.allocated + ports
  serial : s'.serial = s.serial

namespace Passes

variable {s s' : State tier} {ports : Nat}

theorem portsCount (p : s.Passes s' ports) (hi : s.PortsCount) : s'.PortsCount where
  next := by
    have hp := p.ports_le
    rw [p.next, p.allocated, hi.next]
    split
    case isTrue h => simp [h]
    case isFalse h => rw [allocPort_portAt, show ports = 1 by omega]
  port ha := by rw [p.serial, hi.port (p.sockets ▸ ha)]
  serial_lt ha := by
    rw [p.serial, p.allocated]
    exact Nat.lt_add_right ports (hi.serial_lt (p.sockets ▸ ha))

theorem noClash (p : s.Passes s' ports) (hn : s.NoClash) : s'.NoClash := by
  intro h₁ h₂ a b ha hb he
  exact hn (p.sockets ▸ ha) (p.sockets ▸ hb) he

end Passes

theorem serial_add (ss : SocketSet) (a : Socket) (h n m : Nat) :
    (if ss.get? h = none ∧ (ss.add a).1.get? h ≠ none then n else m) =
      if h = (ss.add a).2 then n else m := by
  have hf := ss.get?_add_handle a
  rw [Slab.get?_add]
  grind

variable {resp : Requester}

theorem command_opens_tcp {s s' : State tier} {dst : SocketAddr} (h : s.command (.openTcp dst resp) true = some s') :
    s.Opens s' (.tcp (newTcpSocket tier dst s.stack.nextPort)) := by
  simp only [command, handleCmd, if_true, map_some, Option.some.injEq] at h
  exact h ▸ ⟨rfl, rfl, rfl, rfl, fun k => serial_add _ _ _ _ _⟩

theorem command_opens_udp {s s' : State tier} {connects : Bool} (h : s.command (.openUdp resp) connects = some s') :
    s.Opens s' (.udp ⟨s.stack.nextPort, []⟩) := by
  simp only [command, handleCmd, map_some, Option.some.injEq] at h
  exact h ▸ ⟨rfl, rfl, rfl, rfl, fun k => serial_add _ _ _ _ _⟩

theorem command_refused {s s' : State tier} {dst : SocketAddr}
    (h : s.command (.openTcp dst resp) false = some s') : s.Passes s' 1 := by
  simp only [command, handleCmd, Bool.false_eq_true, if_false, map_some, Option.some.injEq] at h
  exact h ▸ ⟨rfl, rfl, le_refl 1, rfl, by simp⟩

theorem command_setAddrs {s s' : State tier} {connects : Bool} {v4 v6}
    (h : s.command (.setAddrs v4 v6) connects = some s') : s.Passes s' 0 := by
  have ⟨⟨stack, dataIn⟩, hc, he⟩ := map_eq_some_iff.mp h
  have ⟨iface, _, hs⟩ := map_eq_some_iff.mp hc
  cases hs
  exact he ▸ ⟨rfl, rfl, zero_le 1, rfl, by simp⟩

theorem step_portsCount {s s' : State tier} {l : Label} (hi : s.PortsCount)
    (h : s.step l = some s') : s'.PortsCount := by
  obtain ⟨c, connects, _, hc⟩ | ⟨_, hk⟩ := step_keeps h
  case inr => exact hk.portsCount hi
  case inl =>
    cases c
    case openTcp dst resp =>
      cases connects
      case true  => exact (command_opens_tcp hc).portsCount hi
      case false => exact (command_refused hc).portsCount hi
    case openUdp resp => exact (command_opens_udp hc).portsCount hi
    case setAddrs => exact (command_setAddrs hc).portsCount hi

theorem step_noClash_iff {s s' : State tier} {l : Label} (hi : s.PortsCount) (hn : s.NoClash)
    (h : s.step l = some s') : s'.NoClash ↔ s.FreshPort l := by
  obtain ⟨c, connects, rfl, hc⟩ | ⟨hl, hk⟩ := step_keeps h
  case inl =>
    cases c
    case openTcp dst resp =>
      cases connects
      case true  =>
        rw [(command_opens_tcp hc).noClash_iff hi hn]
        constructor
        case mp  => exact fun hf h socket hs hd => hf h _ hs (congrArg some hd)
        case mpr =>
          intro hf h b hb he
          cases b
          case tcp socket => exact hf h socket hb (Option.some.inj he)
          case udp socket => cases he
      case false => exact iff_of_true ((command_refused hc).noClash hn) trivial
    case openUdp resp =>
      rw [(command_opens_udp hc).noClash_iff hi hn]
      constructor
      case mp  => exact fun hf h socket hs => hf h _ hs rfl
      case mpr =>
        intro hf h b hb he
        cases b
        case tcp socket => cases he
        case udp socket => exact hf h socket hb
    case setAddrs => exact iff_of_true ((command_setAddrs hc).noClash hn) trivial
  case inr =>
    refine iff_of_true (hk.noClash hn) ?_
    cases l
    case cmd c connects => exact absurd rfl (hl c connects)
    all_goals trivial

-- A run keeps the ports apart exactly when it opens no socket whose port, a whole number of rounds
-- ago, went to a socket of the same kind that is still live.
theorem always_noClash_iff (iface : Interface) (ls : List Label) :
    Lts.Always step NoClash (init iface : State tier) ls ↔
      Lts.Admits step FreshPort (init iface : State tier) ls := by
  refine always_iff_admits (I := PortsCount) ?_ ?_ (init_portsCount iface) ?_
  · exact fun s l s' hi _ h _ => step_portsCount hi h
  · exact fun s l s' hi hn h => step_noClash_iff hi hn h
  · intro h₁ h₂ a b ha
    simp [init] at ha

theorem step_visitUdp {s : State tier} {id : Nat} {ids : List Nat} {ms : List AppMove}
    (h : s.phase = .serviceUdp (id :: ids)) :
    s.step (.visitUdp ms) =
      (visitUdp s.stack id ms).map fun stack => { s with stack, phase := .serviceUdp ids } := by
  simp [step, h]

theorem udpLoop_empty (fuel : Nat) (st : UdpState tier) (p : Nat) : udpLoop fuel [] st ⟨p, []⟩ = (st, ⟨p, []⟩) := by
  cases fuel
  case zero => rfl
  case succ => simp [udpLoop, UdpState.appMove]

def waiting (n : Nat) (phase : Phase) : State .low where
  stack := {
    iface := {}
    sockets := ⟨[some (.udp ⟨portAt 0, []⟩)]⟩
    tcpConns := fun _ => none
    udpConns := Function.update (fun _ => none) 1 (some { handle := 0, toApp := .empty })
    nextId := 2
    nextPort := portAt (n + 1)
  }
  phase := phase
  udpOwned := Function.update (fun _ => false) 1 true
  allocated := n + 1

def nowhere : SocketAddr := ⟨.v4 (.new 0 0 0 0), 0⟩

def turn : List Label :=
  [.endPoll [], .endTcp [1], .visitUdp [], .endUdp, .drain]

theorem visitUdp_waiting (n : Nat) (phase : Phase) :
    visitUdp (waiting n phase).stack 1 [] = some (waiting n phase).stack := by
  simp [visitUdp, waiting, SocketSet.udp?, Slab.get?, udpLoop_empty, writeUdp, NetStack.setUdp, Slab.put]

theorem exec_turn (n : Nat) : Lts.exec step (waiting n .poll) turn = some (waiting n .select) := by
  have hk : Keys [] 2 (fun _ => none : Nat → Option (TcpState .low)) := by decide
  have hu : Keys [1] 2 (Function.update (fun _ => none) 1 (some { handle := 0, toApp := .empty }) :
    Nat → Option (UdpState .low)) := by decide
  have h₁ : step (waiting n .poll) (.endPoll []) = some (waiting n (.serviceTcp [])) := by
    simp [step, waiting, hk]
  have h₂ : step (waiting n (.serviceTcp [])) (.endTcp [1]) = some (waiting n (.serviceUdp [1])) := by
    simp [step, waiting, hu]
  have h₃ : step (waiting n (.serviceUdp [1])) (.visitUdp []) = some (waiting n (.serviceUdp [])) := by
    rw [step_visitUdp rfl, visitUdp_waiting]
    rfl
  simp only [turn, exec_cons, h₁, h₂, h₃, bind_some]
  rfl

def refusals (n : Nat) : List Label :=
  (List.replicate n (.cmd (.openTcp nowhere .waiting) false :: turn)).flatten

theorem exec_refusals (n : Nat) : Lts.exec step (waiting 0 .select) (refusals n) = some (waiting n .select) := by
  induction n
  case zero => rfl
  case succ n hi =>
    have h : step (waiting n .select) (.cmd (.openTcp nowhere .waiting) false) =
        some (waiting (n + 1) .poll) := by
      simp [step, command, handleCmd, waiting, allocPort_portAt, Cmd.ports]
    rw [refusals, List.replicate_succ', List.flatten_append, exec_append, ← refusals, hi]
    simp [h, exec_turn]

def firstOpen : List Label :=
  [.endPoll [], .endTcp [], .endUdp, .drain, .cmd (.openUdp .waiting) true]

theorem exec_firstOpen : Lts.exec step (init {}) firstOpen = some (waiting 0 .poll) := by
  have hk : Keys [] 1 (fun _ => none : Nat → Option (TcpState .low)) := by decide
  have hu : Keys [] 1 (fun _ => none : Nat → Option (UdpState .low)) := by decide
  simp [firstOpen, step, init, waiting, hk, hu, drainOne, command, handleCmd, addUdp, Slab.add,
    Slab.insertFirst, Cmd.ports, portAt, allocPort, PORTS]

-- The first socket stays open while `n` connects are refused; then a second one is opened.
def reopenAfter (n : Nat) : List Label :=
  firstOpen ++ turn ++ refusals n ++ [.cmd (.openUdp .waiting) true]

theorem not_always_noClash_of_dvd {n : Nat} (hd : PORTS ∣ n + 1) :
    ¬ Lts.Always step NoClash (init {} : State .low) (reopenAfter n) := by
  intro h
  have hx : Lts.exec step (init {}) (firstOpen ++ turn ++ refusals n) =
      some (waiting n .select) := by
    simp only [exec_append, exec_firstOpen, exec_turn, exec_refusals, bind_some]
  have ⟨s, hs, h₀, h₁⟩ : ∃ s, step (waiting n .select) (.cmd (.openUdp .waiting) true) = some s ∧
      s.stack.sockets.get? 0 = some (.udp ⟨portAt 0, []⟩) ∧
      s.stack.sockets.get? 1 = some (.udp ⟨portAt (n + 1), []⟩) := ⟨_, rfl, rfl, rfl⟩
  have hn : s.NoClash := by
    refine h.last ?_
    simp only [reopenAfter, exec_append _ _ [_], hx, bind_some, exec_cons, hs,
      exec_nil]
  have hp : portAt 0 = portAt (n + 1) := (portAt_eq_iff (zero_le _)).mpr hd
  exact absurd (hn h₀ h₁ (by simp [Socket.binding, hp])) zero_ne_one

-- A UDP socket that lives for one round of the allocator meets its own port again.
theorem not_always_noClash : ¬ Lts.Always step NoClash (init {} : State .low) (reopenAfter 15848) :=
  not_always_noClash_of_dvd (by decide)

end State

end Engine.Netstack
