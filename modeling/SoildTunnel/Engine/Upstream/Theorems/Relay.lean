import SoildTunnel.Engine.Upstream.Relay

-- Where the datagrams of the engine's sockets go when a proxy is configured, and what the pumps
-- make of them.
namespace Engine.Upstream

open List Function Option

theorem unspecified_isUnspecified (ip : IpAddr) : (unspecified ip).isUnspecified := by
  cases ip <;> rfl

theorem shimAddr_isLoopback (port : UInt16) : (shimAddr port).ip.isLoopback := rfl

theorem isPrivate_of_isLoopback {ip : IpAddr} (h : ip.isLoopback) : isPrivate ip := by
  cases ip
  case v4 ip =>
    have h : ip.isLoopback = true := h
    simp [isPrivate, h]
  case v6 ip =>
    have h : ip.isLoopback = true := h
    simp [isPrivate, h]

theorem not_isLoopback_of_isUnspecified {ip : IpAddr} (h : ip.isUnspecified) : ¬ ip.isLoopback := by
  cases ip
  case v4 ip =>
    have h : ip = _ := of_decide_eq_true h
    rw [h]
    decide
  case v6 ip =>
    have h : ip = _ := of_decide_eq_true h
    rw [h]
    decide

-- The addresses of this host at which a socket receives; the unspecified one stands for it too.
def Sock.receivesAt (a : Sock) (addr : SocketAddr) : Bool :=
  addr.port = a.bound.port && (addr.ip = a.bound.ip || addr.ip.isLoopback)

-- The history of a socket agrees with the detours.
structure Sock.Attached (detours : Detours) (a : Sock) : Prop where
  bound : a.bound.ip.isUnspecified
  tuic : a.kind = .tuic → a.shim = none ∧ a.target = some a.peer
  shim : a.kind ≠ .tuic → isPrivate a.peer.ip = false → ∃ shim, a.shim = some shim ∧
    shim.ip.isLoopback ∧ detours a.bound = (if a.torn then none else some ⟨shim, a.peer⟩) ∧
    ∀ target ∈ a.target, target = if a.tornAtConnect then a.peer else shim

variable {detours : Detours}

theorem Sock.Attached.congr {detours' : Detours} {a : Sock} (h : a.Attached detours)
    (hd : detours' a.bound = detours a.bound) : a.Attached detours' :=
  ⟨h.bound, h.tuic, fun hk hp => hd ▸ h.shim hk hp⟩

theorem ne_peer_of_isLoopback {shim peer : SocketAddr} (hl : shim.ip.isLoopback)
    (hp : isPrivate peer.ip = false) : shim ≠ peer := by
  intro he
  simp [he ▸ isPrivate_of_isLoopback hl] at hp

theorem Sock.Attached.shim_eq_iff {a : Sock} (ha : a.Attached detours)
    (hk : a.kind ≠ .tuic) (hp : isPrivate a.peer.ip = false) :
    a.shim = some (relayTarget detours a.bound a.peer) ↔ a.torn = false := by
  have ⟨shim, hs, hl, hd, _⟩ := ha.shim hk hp
  have hne := ne_peer_of_isLoopback hl hp
  rw [hs, relayTarget, hd]
  cases a.torn <;> simp [hne]

namespace State

structure Inv (s : State) : Prop where
  lt {id a} : s.sockets id = some a → id < s.next
  distinct {i j a b} : s.sockets i = some a → s.sockets j = some b → a.bound = b.bound → i = j
  sock {id a} : s.sockets id = some a → a.Attached s.detours
  pump {id p} : s.pumps id = some p → p.client.ip.isUnspecified ∧ p.shim.ip.isLoopback
  sent {d} : d ∈ s.sent → d.dst.ip.isLoopback → d.src.ip.isLoopback
  forwarded : s.forwarded = []

variable {os : Os} {s s' : State} {l : Label} {a : Sock} {id : Nat}

theorem foldl_emit (ps : List Bytes) (a : Sock) (dst : SocketAddr) (s : State) : ps.foldl (·.emit os a dst ·) s =
      { s with sent := s.sent ++ ps.map fun p => ⟨a, os.source a.bound dst, dst, p⟩ } := by
  induction ps generalizing s
  case nil => simp
  case cons p ps hi =>
    rw [foldl_cons, hi]
    simp [emit]

theorem isFree_iff {addr : SocketAddr} : s.isFree addr ↔ ∀ i < s.next, (∀ a, s.sockets i = some a → a.bound ≠ addr) ∧
      (∀ p, s.pumps i = some p → p.shim ≠ addr) := by
  simp [isFree, Option.all_eq_true]

namespace Inv

theorem init : Inv {} := by
  constructor <;> simp

theorem send (hi : s.Inv) (h : s.sockets id = some a) (dst : SocketAddr) (ps : List Bytes) :
    (ps.foldl (·.emit os a dst ·) s).Inv := by
  rw [foldl_emit]
  refine ⟨hi.lt, hi.distinct, hi.sock, hi.pump, fun hd hl => ?_, hi.forwarded⟩
  rcases mem_append.mp hd with hd | hd
  · exact hi.sent hd hl
  · have ⟨p, _, hp⟩ := mem_map.mp hd
    subst hp
    exact os.source_loopback (hi.sock h).bound hl

theorem replace (hi : s.Inv) (h : s.sockets id = some a) {a' : Sock} (hb : a'.bound = a.bound)
    (ha : a'.Attached s.detours) : (s.setSock id (some a')).Inv := by
  refine ⟨?_, ?_, ?_, hi.pump, hi.sent, hi.forwarded⟩ <;>
    simp only [setSock, update_apply]
  case refine_1 =>
    intro i b hs
    split at hs
    case isTrue he => exact he ▸ hi.lt h
    case isFalse => exact hi.lt hs
  case refine_2 =>
    intro i j b c hb' hc he
    grind [hi.distinct]
  case refine_3 =>
    intro i b hs
    split at hs
    case isTrue => cases hs; exact ha
    case isFalse => exact hi.sock hs

theorem close (hi : s.Inv) (id : Nat) : (s.setSock id none).Inv := by
  refine ⟨?_, ?_, ?_, hi.pump, hi.sent, hi.forwarded⟩ <;>
    simp only [setSock, update_apply]
  case refine_1 =>
    intro i b hs
    obtain ⟨-, hs⟩ := ite_none_left_eq_some.mp hs
    exact hi.lt hs
  case refine_2 =>
    intro i j b c hb hc he
    grind [hi.distinct]
  case refine_3 =>
    intro i b hs
    obtain ⟨-, hs⟩ := ite_none_left_eq_some.mp hs
    exact hi.sock hs

theorem endPump (hi : s.Inv) (id : Nat) (p : Pump) : (s.endPump id p).Inv := by
  have hs {i b} (h : (s.endPump id p).sockets i = some b) : ∃ a, s.sockets i = some a ∧
      b = if a.bound = p.client then { a with torn := true } else a := by
    have ⟨a, ha, he⟩ := map_eq_some_iff.mp h
    exact ⟨a, ha, he.symm⟩
  have hb {i b} (h : (s.endPump id p).sockets i = some b) :
      ∃ a, s.sockets i = some a ∧ b.bound = a.bound := by
    have ⟨a, ha, he⟩ := hs h
    refine ⟨a, ha, ?_⟩
    rw [he]
    split <;> rfl
  refine ⟨?_, ?_, ?_, ?_, hi.sent, hi.forwarded⟩
  case refine_1 =>
    intro i b h
    have ⟨a, ha, _⟩ := hs h
    exact hi.lt ha
  case refine_2 =>
    intro i j b c h h' he
    have ⟨_, ha, hba⟩ := hb h
    have ⟨_, ha', hba'⟩ := hb h'
    exact hi.distinct ha ha' (hba.symm.trans (he.trans hba'))
  case refine_3 =>
    intro i b h
    have ⟨a, ha, he⟩ := hs h
    have hat := hi.sock ha
    subst he
    split
    case isTrue hc =>
      refine ⟨hat.bound, hat.tuic, fun hk hp => ?_⟩
      have ⟨shim, hsh, hl, _, ht⟩ := hat.shim hk hp
      exact ⟨shim, hsh, hl, by simp [State.endPump, hc], ht⟩
    case isFalse hc =>
      refine ⟨hat.bound, hat.tuic, fun hk hp => ?_⟩
      have ⟨shim, hsh, hl, hd, ht⟩ := hat.shim hk hp
      exact ⟨shim, hsh, hl, by simp [State.endPump, update_of_ne hc, hd], ht⟩
  case refine_4 =>
    intro i p' h
    simp only [State.endPump, update_apply] at h
    obtain ⟨-, h⟩ := ite_none_left_eq_some.mp h
    exact hi.pump h

theorem add (hi : s.Inv) (hf : s.isFree a.bound) {pumps : Nat → Option Pump}
    (ha : a.Attached detours) (hd : ∀ addr ≠ a.bound, detours addr = s.detours addr)
    (hp : ∀ id p, pumps id = some p → p.client.ip.isUnspecified ∧ p.shim.ip.isLoopback) :
    ({ s with next := s.next + 1, detours, pumps }.setSock s.next (some a)).Inv := by
  have hne {i b} (h : s.sockets i = some b) : b.bound ≠ a.bound :=
    (isFree_iff.mp hf i (hi.lt h)).left b h
  refine ⟨?_, ?_, ?_, fun h => hp _ _ h, hi.sent, hi.forwarded⟩ <;>
    simp only [setSock, update_apply]
  case refine_1 =>
    intro i b hs
    split at hs
    case isTrue he => omega
    case isFalse => exact Nat.lt_succ_of_lt (hi.lt hs)
  case refine_2 =>
    intro i j b c hb hc he
    grind [hi.distinct]
  case refine_3 =>
    intro i b hs
    split at hs
    case isTrue => cases hs; exact ha
    case isFalse => exact (hi.sock hs).congr (hd _ (hne hs))

theorem bind (hi : s.Inv) (kind : SockKind) (peer : SocketAddr) (port shimPort : UInt16)
    (noize : Option NoizeConfig) (hf : s.isFree (bindAddrFor peer port)) :
    (s.bind { kind, bound := bindAddrFor peer port, peer, noize } (shimAddr shimPort)).Inv := by
  have hu : (bindAddrFor peer port).ip.isUnspecified := unspecified_isUnspecified peer.ip
  have hattach (hk : kind ≠ .tuic) :
      ({ s with next := s.next + 1 }.attachDetour s.next
        { kind, bound := bindAddrFor peer port, peer, noize } (shimAddr shimPort)).Inv := by
    unfold attachDetour
    split
    case isTrue hp =>
      exact hi.add (a := { kind, bound := bindAddrFor peer port, peer, noize }) hf
        ⟨hu, fun h => absurd h hk, fun _ hn => by simp [hp] at hn⟩ (fun _ _ => rfl) (fun _ _ => hi.pump)
    case isFalse hp =>
      refine hi.add (a := { kind, bound := bindAddrFor peer port, peer, noize, shim := some _ }) hf
        ⟨hu, fun h => absurd h hk, fun _ _ => ⟨_, rfl, shimAddr_isLoopback shimPort, ?_, nofun⟩⟩ ?_ ?_
      · simp
      · exact fun addr hne => update_of_ne hne ..
      · intro i p h
        rw [update_apply] at h
        split at h
        case isTrue => cases h; exact ⟨hu, shimAddr_isLoopback shimPort⟩
        case isFalse => exact hi.pump h
  cases kind
  case tuic =>
    exact hi.add (a := { kind := .tuic, bound := bindAddrFor peer port, peer, noize, target := some peer })
      hf ⟨hu, fun _ => ⟨rfl, rfl⟩, fun h => absurd rfl h⟩ (fun _ _ => rfl) (fun _ _ => hi.pump)
  all_goals exact hattach nofun

theorem connect (hi : s.Inv) (h : s.sockets id = some a) (hk : a.kind ≠ .tuic) : (s.setSock id (some { a with
      target := some (relayTarget s.detours a.bound a.peer)
      tornAtConnect := a.torn })).Inv := by
  have ha := hi.sock h
  refine hi.replace h rfl ⟨ha.bound, fun ht => absurd ht hk, fun _ hp => ?_⟩
  have ⟨shim, hs, hl, hd, _⟩ := ha.shim hk hp
  refine ⟨shim, hs, hl, hd, fun target ht => ?_⟩
  cases ht
  simp only [relayTarget, hd]
  cases a.torn <;> rfl

-- A pump never sees a datagram from the address it waits for.
theorem src_ne_client (hi : s.Inv) {d : Datagram} {p : Pump} (hp : s.pumps id = some p)
    (hd : d ∈ s.sent) (hs : d.dst = p.shim) : d.src ≠ p.client := by
  have ⟨hc, hl⟩ := hi.pump hp
  have hsrc : d.src.ip.isLoopback := hi.sent hd (hs ▸ hl)
  intro he
  exact not_isLoopback_of_isUnspecified hc (he ▸ hsrc)

theorem step (hi : s.Inv) (h : s.step os l = some s') : s'.Inv := by
  cases l <;> simp only [State.step] at h
  case bind kind peer port shimPort noize =>
    split at h
    case isTrue hf => cases h; exact hi.bind _ _ _ _ _ hf.left
    case isFalse => cases h
  case connect id =>
    have ⟨a, ha, h⟩ := bind_eq_some_iff.mp h
    split at h
    case isTrue hk =>
      cases h
      exact hi.connect ha fun ht => by simp [ht] at hk
    case isFalse => cases h
  case preHandshake id draw =>
    have ⟨a, ha, h⟩ := bind_eq_some_iff.mp h
    have ⟨cfg, _, h⟩ := bind_eq_some_iff.mp h
    split at h
    case isTrue =>
      cases h
      have hs : ((cfg.preHandshake draw).foldl (·.emit os a a.peer ·) s).Inv := hi.send ha ..
      rw [foldl_emit] at hs ⊢
      have hat := hi.sock ha
      exact hs.replace ha rfl ⟨hat.bound, hat.tuic, hat.shim⟩
    case isFalse => cases h
  case flush id payload =>
    have ⟨a, ha, h⟩ := bind_eq_some_iff.mp h
    split at h
    case isTrue => cases h; exact hi.send ha _ [payload]
    case isFalse => cases h
  case send id payload =>
    have ⟨a, ha, h⟩ := bind_eq_some_iff.mp h
    have ⟨target, _, h⟩ := map_eq_some_iff.mp h
    exact h ▸ hi.send ha target [payload]
  case close id =>
    have ⟨_, _, h⟩ := map_eq_some_iff.mp h
    exact h ▸ hi.close id
  case pumpRead id d =>
    have ⟨p, hp, h⟩ := bind_eq_some_iff.mp h
    split at h
    case isTrue hd =>
      rw [if_pos (hi.src_ne_client hp hd.left hd.right)] at h
      cases h
      exact hi
    case isFalse => cases h
  case relayRead id payload =>
    have ⟨p, _, h⟩ := map_eq_some_iff.mp h
    exact h ▸ ⟨hi.lt, hi.distinct, hi.sock, hi.pump, hi.sent, hi.forwarded⟩
  case pumpEnds id =>
    have ⟨p, _, h⟩ := map_eq_some_iff.mp h
    exact h ▸ hi.endPump id p

end Inv

-- The pump of a socket passes its datagram on to the peer, and the relay's answer to an address at
-- which the socket receives.
def Relays (os : Os) (s : State) (id : Nat) (a : Sock) (d : Datagram) (reply : Bytes) : Prop :=
  (∃ s', s.step os (.pumpRead id d) = some s' ∧
    s'.forwarded = s.forwarded ++ [(d.payload, a.peer)]) ∧
  (∃ s' addr, s.step os (.relayRead id reply) = some s' ∧
    s'.replies = s.replies ++ [(addr, reply)] ∧ a.receivesAt addr)

theorem Inv.forwards_nothing (hi : s.Inv) {d : Datagram} (h : s.step os (.pumpRead id d) = some s') :
    s'.forwarded = s.forwarded :=
  (hi.step h).forwarded.trans hi.forwarded.symm

theorem Inv.not_relays_of_inv (hi : s.Inv) (id : Nat) (a : Sock) (d : Datagram) (reply : Bytes) :
    ¬ s.Relays os id a d reply := by
  intro ⟨⟨s', hs, hf⟩, _⟩
  rw [hi.forwards_nothing hs] at hf
  simp at hf

theorem exec_inv {ls : List Label} (h : Lts.exec (step os) {} ls = some s) : s.Inv :=
  Lts.exec_invariant (fun _ _ _ hi h => hi.step h) Inv.init h

-- In no run does a pump pass anything on: it waits for the unspecified address to which its socket
-- was bound, and the system never delivers from there.
theorem not_relays {ls : List Label} (h : Lts.exec (step os) {} ls = some s) (id : Nat) (a : Sock)
    (d : Datagram) (reply : Bytes) : ¬ s.Relays os id a d reply :=
  (exec_inv h).not_relays_of_inv id a d reply

def edge : SocketAddr := ⟨.v4 (.new 162 159 192 1), 443⟩

def flushed : List Label :=
  [.bind .masque edge 40000 50000 none, .flush 0 [1]]

def flushedSock : Sock where
  kind := .masque
  bound := bindAddrFor edge 40000
  peer := edge
  shim := some (shimAddr 50000)

def flushedDatagram : Datagram :=
  ⟨flushedSock, ⟨.v4 (.new 127 0 0 1), 40000⟩, shimAddr 50000, [1]⟩

theorem exec_flushed : ∃ s, Lts.exec (step Os.linux) {} flushed = some s ∧
    s.sockets 0 = some flushedSock ∧ s.pumps 0 = some ⟨shimAddr 50000, bindAddrFor edge 40000, edge⟩ ∧
    flushedDatagram ∈ s.sent := by
  have hx : (Lts.exec (step Os.linux) {} flushed).any (fun s => s.sockets 0 = some flushedSock &&
      s.pumps 0 = some ⟨shimAddr 50000, bindAddrFor edge 40000, edge⟩ && s.sent = [flushedDatagram]) := by
    decide +kernel
  have ⟨s, hs, hl⟩ := (Option.any_eq_true ..).mp hx
  simp only [Bool.and_eq_true, decide_eq_true_eq] at hl
  exact ⟨s, hs, hl.left.left, hl.left.right, by simp [hl.right]⟩

theorem not_relays_flushed : ∃ s, Lts.exec (step Os.linux) {} flushed = some s ∧
    ¬ s.Relays Os.linux 0 flushedSock flushedDatagram [2] :=
  have ⟨s, hs, _⟩ := exec_flushed
  ⟨s, hs, not_relays hs 0 flushedSock flushedDatagram [2]⟩

-- A datagram of a live socket is waiting at the socket's own shim, and its pump reads it in vain.
theorem pump_discards_flushed : ∃ s p, Lts.exec (step Os.linux) {} flushed = some s ∧
    s.sockets 0 = some flushedSock ∧ s.pumps 0 = some p ∧ flushedDatagram ∈ s.sent ∧
    flushedDatagram.dst = p.shim ∧ ∀ reply, ¬ s.Relays Os.linux 0 flushedSock flushedDatagram reply :=
  have ⟨s, hs, ha, hp, hd⟩ := exec_flushed
  ⟨s, _, hs, ha, hp, hd, rfl, (exec_inv hs).not_relays_of_inv 0 flushedSock flushedDatagram⟩

-- Every datagram of the tunnel clients to a peer that is not local goes to the socket's shim.
def Detoured (s : State) : Prop :=
  ∀ d ∈ s.sent, d.owner.kind ≠ .plain → isPrivate d.owner.peer.ip = false →
    d.owner.shim = some d.dst

-- Sends nothing past the proxy: no noise ahead of a handshake, no TUIC, and no pump of the
-- socket's address has ended before the socket is used (or, where it is connected, before that).
def KeepsDetour (s : State) : Label → Prop
  | .preHandshake id draw => ∀ a ∈ s.sockets id, ∀ cfg ∈ a.noize,
    isPrivate a.peer.ip = false → cfg.preHandshake draw = []
  | .flush id _ => ∀ a ∈ s.sockets id, isPrivate a.peer.ip = false → a.torn = false
  | .send id _ => ∀ a ∈ s.sockets id, a.kind ≠ .plain → isPrivate a.peer.ip = false →
    a.kind ≠ .tuic ∧ a.tornAtConnect = false
  | _ => True

theorem detoured_append_iff (hd : s.Detoured) (a : Sock) (src dst : SocketAddr) (ps : List Bytes) :
    Detoured { s with sent := s.sent ++ ps.map fun p => ⟨a, src, dst, p⟩ } ↔
      (ps ≠ [] → a.kind ≠ .plain → isPrivate a.peer.ip = false → a.shim = some dst) := by
  constructor
  case mp =>
    intro h hne
    have ⟨p, hp⟩ := exists_mem_of_ne_nil ps hne
    exact h ⟨a, src, dst, p⟩ (mem_append_right _ (mem_map_of_mem hp))
  case mpr =>
    intro h d hm
    rcases mem_append.mp hm with hm | hm
    · exact hd d hm
    · have ⟨p, hp, he⟩ := mem_map.mp hm
      subst he
      exact h (ne_nil_of_mem hp)

theorem emit_detoured_iff (hd : s.Detoured) (a : Sock) (dst : SocketAddr) (payload : Bytes) :
    (s.emit os a dst payload).Detoured ↔
      (a.kind ≠ .plain → isPrivate a.peer.ip = false → a.shim = some dst) := by
  have h := detoured_append_iff hd a (os.source a.bound dst) dst [payload]
  simpa [emit] using h

theorem step_detoured_iff (hi : s.Inv) (hd : s.Detoured) (h : s.step os l = some s') :
    s'.Detoured ↔ s.KeepsDetour l := by
  cases l <;> simp only [step] at h
  case preHandshake id draw =>
    have ⟨a, ha, h⟩ := bind_eq_some_iff.mp h
    have ⟨cfg, hc, h⟩ := bind_eq_some_iff.mp h
    split at h
    case isTrue hk =>
      cases h
      have hat := hi.sock ha
      have hiff := detoured_append_iff hd a (os.source a.bound a.peer) a.peer (cfg.preHandshake draw)
      rw [foldl_emit]
      refine Iff.trans hiff ?_
      simp only [KeepsDetour, ha, hc, mem_def, Option.some.injEq, forall_eq']
      have hkind : a.kind ≠ .tuic ∧ a.kind ≠ .plain := by
        rcases hk.left with hk | hk <;> simp [hk]
      have hmiss (hp : isPrivate a.peer.ip = false) : a.shim ≠ some a.peer := by
        have ⟨shim, hs, hl, _⟩ := hat.shim hkind.left hp
        simpa [hs] using ne_peer_of_isLoopback hl hp
      constructor
      case mp => exact fun h hp => by_contra fun hne => hmiss hp (h hne hkind.right hp)
      case mpr => exact fun h hne _ hp => absurd (h hp) hne
    case isFalse => cases h
  case flush id payload =>
    have ⟨a, ha, h⟩ := bind_eq_some_iff.mp h
    split at h
    case isTrue hk =>
      cases h
      rw [emit_detoured_iff hd]
      simp only [KeepsDetour, ha, mem_def, Option.some.injEq, forall_eq']
      have hat := hi.sock ha
      have hkind : a.kind ≠ .tuic ∧ a.kind ≠ .plain := by simp [hk.left]
      constructor
      case mp => exact fun h hp => (hat.shim_eq_iff hkind.left hp).mp (h hkind.right hp)
      case mpr => exact fun h _ hp => (hat.shim_eq_iff hkind.left hp).mpr (h hp)
    case isFalse => cases h
  case send id payload =>
    have ⟨a, ha, h⟩ := bind_eq_some_iff.mp h
    have ⟨target, ht, h⟩ := map_eq_some_iff.mp h
    cases h
    rw [emit_detoured_iff hd]
    simp only [KeepsDetour, ha, mem_def, Option.some.injEq, forall_eq']
    have hat := hi.sock ha
    refine forall₂_congr fun _ hp => ?_
    by_cases hk : a.kind = .tuic
    case pos => simp [hk, (hat.tuic hk).left]
    case neg =>
      have ⟨shim, hs, hl, _, hc⟩ := hat.shim hk hp
      have hne := ne_peer_of_isLoopback hl hp
      rw [hs, hc target ht]
      cases a.tornAtConnect <;> simp [hk, hne]
  case bind kind peer port shimPort noize =>
    split at h
    case isTrue =>
      cases h
      refine iff_of_true ?_ trivial
      have hs : (s.bind { kind, bound := bindAddrFor peer port, peer, noize } (shimAddr shimPort)).sent =
          s.sent := by
        unfold bind attachDetour
        split
        case h_1 => rfl
        case h_2 => split <;> rfl
      rw [Detoured, hs]
      exact hd
    case isFalse => cases h
  case connect id =>
    have ⟨a, _, h⟩ := bind_eq_some_iff.mp h
    split at h
    case isTrue => cases h; exact iff_of_true hd trivial
    case isFalse => cases h
  case pumpRead id d =>
    have ⟨p, _, h⟩ := bind_eq_some_iff.mp h
    split at h
    case isTrue => split at h <;> cases h <;> exact iff_of_true hd trivial
    case isFalse => cases h
  case close | relayRead | pumpEnds =>
    have ⟨_, _, h⟩ := map_eq_some_iff.mp h
    exact h ▸ iff_of_true hd trivial

-- A run sends nothing past the proxy exactly when none of its steps does one of these things.
theorem always_detoured_iff (os : Os) (ls : List Label) :
    Lts.Always (step os) Detoured {} ls ↔ Lts.Admits (step os) KeepsDetour {} ls := by
  refine Lts.always_iff_admits (I := Inv) ?_ ?_ Inv.init ?_
  · exact fun s l s' hi _ h _ => hi.step h
  · exact fun s l s' hi hd h => step_detoured_iff hi hd h
  · exact fun _ hm => nomatch hm

-- The lightest noise that the app offers: a junk packet and a signature.
def noisy : List Label :=
  [.bind .masque edge 40000 50000 (some .light),
    .preHandshake 0 ⟨[List.replicate 32 0], [], [13, 10, 13, 10], []⟩]

theorem not_always_detoured : ¬ Lts.Always (step Os.linux) Detoured {} noisy := by
  intro h
  have hx : (Lts.exec (step Os.linux) {} noisy).any (fun s => s.sent.any fun d =>
      d.owner.kind ≠ .plain && isPrivate d.owner.peer.ip = false && d.owner.shim ≠ some d.dst) := by
    decide +kernel
  have ⟨s, hs, hl⟩ := (Option.any_eq_true ..).mp hx
  have ⟨d, hd, hl⟩ := any_eq_true.mp hl
  simp only [Bool.and_eq_true, decide_eq_true_eq] at hl
  have hdet : s.Detoured := h.last hs
  exact hl.right (hdet d hd hl.left.left hl.left.right)

end State

end Engine.Upstream
