import SoildTunnel.Engine.Netstack.Run

-- The tables of the stack: which connection has which socket.
namespace Engine.Netstack

open Option Function

variable {tier : Tier} {s : NetStack tier} {id : Nat}

structure Tables (s : NetStack tier) : Prop where
  tcp_lt {id st} : s.tcpConns id = some st → id < s.nextId
  udp_lt {id st} : s.udpConns id = some st → id < s.nextId
  disjoint {id st st'} : s.tcpConns id = some st → s.udpConns id ≠ some st'
  tcp_socket {id st} : s.tcpConns id = some st → ∃ socket, s.sockets.get? st.handle = some (.tcp socket)
  udp_socket {id st} : s.udpConns id = some st → ∃ socket, s.sockets.get? st.handle = some (.udp socket)
  tcp_injective {i j st st'} :
    s.tcpConns i = some st → s.tcpConns j = some st' → st.handle = st'.handle → i = j
  udp_injective {i j st st'} :
    s.udpConns i = some st → s.udpConns j = some st' → st.handle = st'.handle → i = j
  owned {h socket} : s.sockets.get? h = some socket →
    (∃ id st, s.tcpConns id = some st ∧ st.handle = h) ∨
    (∃ id st, s.udpConns id = some st ∧ st.handle = h)

theorem entryOf_eq_some {e : Entry tier} : entryOf s id = some e ↔
      s.tcpConns id = some e.st ∧ s.sockets.get? e.st.handle = some (.tcp e.socket) := by
  simp only [entryOf, bind_eq_some_iff, map_eq_some_iff, SocketSet.tcp?]
  constructor
  case mp =>
    rintro ⟨st, hst, socket, hs, rfl⟩
    split at hs <;> simp_all
  case mpr =>
    intro ⟨hst, hs⟩
    exact ⟨e.st, hst, e.socket, by simp [hs], rfl⟩

structure Entry.Same (e e' : Entry tier) : Prop where
  handle : e'.st.handle = e.st.handle
  localPort : e'.socket.localPort = e.socket.localPort
  remote : e'.socket.remote = e.socket.remote

-- What a step other than a command does to the tables.
inductive Upkeep (s : NetStack tier) : NetStack tier → Prop
  | keep : Upkeep s s
  | setTcp {id st st'} :
    s.tcpConns id = some st → st'.handle = st.handle → Upkeep s (s.setTcp id st')
  | writeTcp {id e e'} :
    entryOf s id = some e → e.Same e' → Upkeep s (writeEntry s id e')
  | eraseTcp {id e} :
    entryOf s id = some e → Upkeep s (s.eraseTcp id e.st.handle)
  | setUdp {id st st'} :
    s.udpConns id = some st → st'.handle = st.handle → Upkeep s (s.setUdp id st')
  | writeUdp {id st st' socket socket'} :
    s.udpConns id = some st → st'.handle = st.handle → s.sockets.get? st.handle = some (.udp socket) →
    socket'.localPort = socket.localPort →
    Upkeep s (writeUdp s id st' socket')
  | eraseUdp {id st} :
    s.udpConns id = some st → Upkeep s (s.eraseUdp id st.handle)

variable {s' : NetStack tier}

theorem Upkeep.nextId (h : Upkeep s s') : s'.nextId = s.nextId := by
  cases h <;> rfl

theorem Upkeep.nextPort (h : Upkeep s s') : s'.nextPort = s.nextPort := by
  cases h <;> rfl

theorem Upkeep.iface (h : Upkeep s s') : s'.iface = s.iface := by
  cases h <;> rfl

namespace Tables

theorem init (iface : Interface) : Tables (State.init iface : State tier).stack := by
  constructor <;> simp [State.init]

def kindOf : Socket → Bool
  | .tcp _ => true
  | .udp _ => false

-- The tables only concern which handles there are, and of what kind their sockets are.
structure SameShape (s s' : NetStack tier) : Prop where
  nextId : s'.nextId = s.nextId
  tcp (id : Nat) : (s'.tcpConns id).map (·.handle) = (s.tcpConns id).map (·.handle)
  udp (id : Nat) : (s'.udpConns id).map (·.handle) = (s.udpConns id).map (·.handle)
  kind (h : Nat) : (s'.sockets.get? h).map kindOf = (s.sockets.get? h).map kindOf

theorem exists_of_map_eq {α β γ : Type} {f : α → γ} {g : β → γ} {o : Option α} {o' : Option β} {b : β}
    (h : o'.map g = o.map f) (hb : o' = some b) : ∃ a, o = some a ∧ f a = g b := by
  rw [hb] at h
  exact map_eq_some_iff.mp h.symm

theorem of_sameShape (t : Tables s) (h : SameShape s s') : Tables s' := by
  constructor
  case tcp_lt =>
    intro id st hst
    obtain ⟨_, hst, _⟩ := exists_of_map_eq (h.tcp id) hst
    exact h.nextId ▸ t.tcp_lt hst
  case udp_lt =>
    intro id st hst
    obtain ⟨_, hst, _⟩ := exists_of_map_eq (h.udp id) hst
    exact h.nextId ▸ t.udp_lt hst
  case disjoint =>
    intro id st st' hst hst'
    obtain ⟨_, hst, _⟩ := exists_of_map_eq (h.tcp id) hst
    obtain ⟨_, hst', _⟩ := exists_of_map_eq (h.udp id) hst'
    exact t.disjoint hst hst'
  case tcp_socket =>
    intro id st hst
    obtain ⟨_, hst, hh⟩ := exists_of_map_eq (h.tcp id) hst
    obtain ⟨socket, hs⟩ := t.tcp_socket hst
    obtain ⟨socket | _, hs, hk⟩ := exists_of_map_eq (h.kind _).symm hs
    case tcp => exact ⟨socket, hh ▸ hs⟩
    case udp => cases hk
  case udp_socket =>
    intro id st hst
    obtain ⟨_, hst, hh⟩ := exists_of_map_eq (h.udp id) hst
    obtain ⟨socket, hs⟩ := t.udp_socket hst
    obtain ⟨_ | socket, hs, hk⟩ := exists_of_map_eq (h.kind _).symm hs
    case tcp => cases hk
    case udp => exact ⟨socket, hh ▸ hs⟩
  case tcp_injective =>
    intro i j st st' hi hj he
    obtain ⟨_, hi, hi'⟩ := exists_of_map_eq (h.tcp i) hi
    obtain ⟨_, hj, hj'⟩ := exists_of_map_eq (h.tcp j) hj
    exact t.tcp_injective hi hj (hi'.trans (he.trans hj'.symm))
  case udp_injective =>
    intro i j st st' hi hj he
    obtain ⟨_, hi, hi'⟩ := exists_of_map_eq (h.udp i) hi
    obtain ⟨_, hj, hj'⟩ := exists_of_map_eq (h.udp j) hj
    exact t.udp_injective hi hj (hi'.trans (he.trans hj'.symm))
  case owned =>
    intro k socket hs
    obtain ⟨_, hs, _⟩ := exists_of_map_eq (h.kind k) hs
    refine (t.owned hs).imp ?_ ?_
    · rintro ⟨id, st, hst, rfl⟩
      obtain ⟨st', hst', hh⟩ := exists_of_map_eq (h.tcp id).symm hst
      exact ⟨id, st', hst', hh⟩
    · rintro ⟨id, st, hst, rfl⟩
      obtain ⟨st', hst', hh⟩ := exists_of_map_eq (h.udp id).symm hst
      exact ⟨id, st', hst', hh⟩

theorem map_update_eq {α β : Type} {f : Nat → Option α} {g : α → β} {i : Nat} {a a' : α} (h : f i = some a)
    (hg : g a' = g a) (j : Nat) : (Function.update f i (some a') j).map g = (f j).map g := by
  by_cases hj : j = i
  case pos => subst hj; simp [h, hg]
  case neg => simp [update_of_ne hj]

theorem map_put_eq {ss : SocketSet} {h : Nat} {socket socket' : Socket} (hs : ss.get? h = some socket)
    (hk : kindOf socket' = kindOf socket) (k : Nat) :
    ((ss.put h socket').get? k).map kindOf = (ss.get? k).map kindOf := by
  rw [Slab.get?_put hs]
  split
  case isTrue he => simp [he, hs, hk]
  case isFalse => rfl

theorem update_none_eq_some {α : Type} {f : Nat → Option α} {i j : Nat} {a : α} :
    Function.update f i none j = some a ↔ j ≠ i ∧ f j = some a := by
  rw [update_apply, ite_none_left_eq_some]

theorem eraseTcp {st : TcpState tier} (t : Tables s) (hst : s.tcpConns id = some st) :
    Tables (s.eraseTcp id st.handle) := by
  constructor
  case tcp_lt => exact fun h => t.tcp_lt (update_none_eq_some.mp h).2
  case udp_lt => exact t.udp_lt
  case disjoint => exact fun h => t.disjoint (update_none_eq_some.mp h).2
  case tcp_socket =>
    intro i _ h
    obtain ⟨hi, h⟩ := update_none_eq_some.mp h
    obtain ⟨socket, hs⟩ := t.tcp_socket h
    exact ⟨socket, Slab.get?_remove_eq_some.mpr ⟨fun he => hi (t.tcp_injective h hst he), hs⟩⟩
  case udp_socket =>
    intro i _ h
    obtain ⟨socket, hs⟩ := t.udp_socket h
    obtain ⟨_, hs'⟩ := t.tcp_socket hst
    refine ⟨socket, Slab.get?_remove_eq_some.mpr ⟨fun he => ?_, hs⟩⟩
    rw [he, hs'] at hs
    cases hs
  case tcp_injective =>
    exact fun hi hj => t.tcp_injective (update_none_eq_some.mp hi).2 (update_none_eq_some.mp hj).2
  case udp_injective => exact t.udp_injective
  case owned =>
    intro k _ hs
    obtain ⟨hk, hs⟩ := Slab.get?_remove_eq_some.mp hs
    refine (t.owned hs).imp_left ?_
    rintro ⟨i, st', h, rfl⟩
    refine ⟨i, st', update_none_eq_some.mpr ⟨?_, h⟩, rfl⟩
    rintro rfl
    exact hk (some_inj.mp (h.symm.trans hst) ▸ rfl)

theorem eraseUdp {st : UdpState tier} (t : Tables s) (hst : s.udpConns id = some st) :
    Tables (s.eraseUdp id st.handle) := by
  constructor
  case tcp_lt => exact t.tcp_lt
  case udp_lt => exact fun h => t.udp_lt (update_none_eq_some.mp h).2
  case disjoint => exact fun h h' => t.disjoint h (update_none_eq_some.mp h').2
  case tcp_socket =>
    intro i _ h
    obtain ⟨socket, hs⟩ := t.tcp_socket h
    obtain ⟨_, hs'⟩ := t.udp_socket hst
    refine ⟨socket, Slab.get?_remove_eq_some.mpr ⟨fun he => ?_, hs⟩⟩
    rw [he, hs'] at hs
    cases hs
  case udp_socket =>
    intro i _ h
    obtain ⟨hi, h⟩ := update_none_eq_some.mp h
    obtain ⟨socket, hs⟩ := t.udp_socket h
    exact ⟨socket, Slab.get?_remove_eq_some.mpr ⟨fun he => hi (t.udp_injective h hst he), hs⟩⟩
  case tcp_injective => exact t.tcp_injective
  case udp_injective =>
    exact fun hi hj => t.udp_injective (update_none_eq_some.mp hi).2 (update_none_eq_some.mp hj).2
  case owned =>
    intro k _ hs
    obtain ⟨hk, hs⟩ := Slab.get?_remove_eq_some.mp hs
    refine (t.owned hs).imp_right ?_
    rintro ⟨i, st', h, rfl⟩
    refine ⟨i, st', update_none_eq_some.mpr ⟨?_, h⟩, rfl⟩
    rintro rfl
    exact hk (some_inj.mp (h.symm.trans hst) ▸ rfl)

theorem upkeep (t : Tables s) (h : Upkeep s s') : Tables s' := by
  cases h
  case keep => exact t
  case setTcp hst hh => exact t.of_sameShape ⟨rfl, map_update_eq hst hh, fun _ => rfl, fun _ => rfl⟩
  case setUdp hst hh => exact t.of_sameShape ⟨rfl, fun _ => rfl, map_update_eq hst hh, fun _ => rfl⟩
  case writeTcp he hh =>
    have ⟨hst, hs⟩ := entryOf_eq_some.mp he
    rw [← hh.handle] at hs
    exact t.of_sameShape ⟨rfl, map_update_eq hst hh.handle, fun _ => rfl, map_put_eq hs rfl⟩
  case writeUdp hst hh hs _ =>
    rw [← hh] at hs
    exact t.of_sameShape ⟨rfl, fun _ => rfl, map_update_eq hst hh, map_put_eq hs rfl⟩
  case eraseTcp he => exact t.eraseTcp (entryOf_eq_some.mp he).1
  case eraseUdp hst => exact t.eraseUdp hst

theorem addTcp {dst : SocketAddr} {resp : Requester} (t : Tables s) : Tables (addTcp s dst resp) := by
  have hf := s.sockets.get?_add_handle (.tcp (newTcpSocket tier dst s.nextPort))
  have hg := s.sockets.get?_add (.tcp (newTcpSocket tier dst s.nextPort))
  constructor <;> simp only [Netstack.addTcp, update_apply, hg]
  case owned =>
    intro h socket hs
    split at hs
    case isTrue he  => exact .inl ⟨s.nextId, _, if_pos rfl, he.symm⟩
    case isFalse he =>
      refine (t.owned hs).imp_left ?_
      rintro ⟨id, st, hst, hh⟩
      refine ⟨id, st, ?_, hh⟩
      exact (if_neg (Nat.ne_of_lt (t.tcp_lt hst))).trans hst
  all_goals grind [Tables]

theorem addUdp {resp : Requester} (t : Tables s) : Tables (addUdp s resp) := by
  have hf := s.sockets.get?_add_handle (.udp ⟨s.nextPort, []⟩)
  have hg := s.sockets.get?_add (.udp ⟨s.nextPort, []⟩)
  constructor <;> simp only [Netstack.addUdp, update_apply, hg]
  case owned =>
    intro h socket hs
    split at hs
    case isTrue he  => exact .inr ⟨s.nextId, _, if_pos rfl, he.symm⟩
    case isFalse he =>
      refine (t.owned hs).imp_right ?_
      rintro ⟨id, st, hst, hh⟩
      refine ⟨id, st, ?_, hh⟩
      exact (if_neg (Nat.ne_of_lt (t.udp_lt hst))).trans hst
  all_goals grind [Tables]

end Tables

variable {ms : List AppMove}

namespace Entry

theorem Same.refl (e : Entry tier) : e.Same e := ⟨rfl, rfl, rfl⟩

theorem Same.trans {e₁ e₂ e₃ : Entry tier} (h₁ : e₁.Same e₂) (h₂ : e₂.Same e₃) : e₁.Same e₃ :=
  ⟨h₂.handle.trans h₁.handle, h₂.localPort.trans h₁.localPort, h₂.remote.trans h₁.remote⟩

theorem close_same (e : Entry tier) : e.Same e.close := by
  constructor <;> simp only [close, Tcp.Socket.close] <;> split <;> rfl

theorem announce_same (id : Nat) (e : Entry tier) (q : DataQueue tier) : e.Same (e.announce id q).1 := by
  unfold announce
  split
  case isTrue => split <;> exact ⟨rfl, rfl, rfl⟩
  case isFalse => exact .refl e

theorem handOver_same (e : Entry tier) : e.Same e.handOver.1 := by
  simp only [handOver]
  split <;> exact ⟨rfl, rfl, rfl⟩

theorem closeDrained_same (e : Entry tier) : e.Same e.closeDrained.1 := by
  unfold closeDrained
  split
  case isTrue => exact e.close_same
  case isFalse => exact .refl e

theorem appMove_handle (m : AppMove) (st : TcpState tier) : (st.appMove m).1.handle = st.handle := by
  unfold TcpState.appMove
  split
  case isTrue => rfl
  case isFalse => split <;> rfl

theorem receive_same (e : Entry tier) : e.Same e.receive := ⟨rfl, rfl, rfl⟩

theorem recvLoop_same (fuel : Nat) (ms : List AppMove) (e : Entry tier) : e.Same (e.recvLoop fuel ms).1 := by
  induction fuel generalizing ms e
  case zero => exact .refl e
  case succ fuel hi =>
    have hm : e.Same { e with st := (e.st.appMove (ms.headD {})).1 } :=
      ⟨appMove_handle _ _, rfl, rfl⟩
    simp only [recvLoop]
    split
    case h_1 => exact hm
    case h_2 => exact hm
    case h_3 =>
      split
      case isTrue => exact hm.trans <| (receive_same _).trans (hi _ _)
      case isFalse => exact hm

theorem closeGone_same (exit : Exit) (e : Entry tier) : e.Same (e.closeGone exit).1 := by
  unfold closeGone
  split
  case isTrue => exact e.close_same
  case isFalse => exact .refl e

theorem exchange_same (ms : List AppMove) (e : Entry tier) : e.Same (e.exchange ms).1 := by
  simp only [exchange]
  exact (handOver_same _).trans <| (closeDrained_same _).trans <| (recvLoop_same _ _ _).trans <|
    closeGone_same _ _

theorem settle_same {e e' : Entry tier} (h : e.settle.1 = some e') : e.Same e' := by
  unfold settle at h
  split at h
  case h_1 => exact Option.some.inj h ▸ e.close_same
  case h_2 =>
    split at h
    case isTrue => cases h
    case isFalse => exact Option.some.inj h ▸ ⟨rfl, rfl, rfl⟩
  case h_3 =>
    split at h
    case isTrue => cases h
    case isFalse => exact Option.some.inj h ▸ .refl e
  case h_4 => exact Option.some.inj h ▸ .refl e

theorem service_same {id : Nat} {e e' : Entry tier} {q : DataQueue tier}
    (h : (e.service id ms q).1 = some e') : e.Same e' := by
  simp only [service] at h
  split at h
  case isTrue => cases h
  case isFalse =>
    exact (announce_same id e q).trans <| (exchange_same ms _).trans <| settle_same h

end Entry

theorem Tcp.Socket.poll_cases {socket socket' : Tcp.Socket} {m : Tcp.Move} (h : socket.poll m = some socket') :
    (m = .abort ∧ socket.state ≠ .closed ∧ socket' = { socket with state := .closed }) ∨
    (∃ bytes rx, m = .data bytes ∧ socket.rx.enqueue bytes = some rx ∧ socket' = { socket with rx }) ∨
    (∃ count, m = .freed count ∧ socket' = { socket with txRoom := socket.txRoom + count }) ∨
    (∃ state, socket.state.next m = some state ∧ socket' = { socket with state }) := by
  cases m <;> simp only [poll] at h
  case abort =>
    obtain ⟨hc, h⟩ := ite_none_left_eq_some.mp h
    exact .inl ⟨rfl, hc, (Option.some.inj h).symm⟩
  case data bytes =>
    split at h
    case isTrue =>
      have ⟨rx, hr, he⟩ := map_eq_some_iff.mp h
      exact .inr <| .inl ⟨bytes, rx, rfl, hr, he.symm⟩
    case isFalse => cases h
  case freed count => exact .inr <| .inr <| .inl ⟨count, rfl, (Option.some.inj h).symm⟩
  all_goals
    have ⟨state, hs, he⟩ := map_eq_some_iff.mp h
    exact .inr <| .inr <| .inr ⟨state, hs, he.symm⟩

theorem Entry.poll_same {e : Entry tier} {socket : Tcp.Socket} {m : Tcp.Move}
    (h : e.socket.poll m = some socket) : e.Same { e with socket } := by
  obtain ⟨_, _, rfl⟩ | ⟨_, _, _, _, rfl⟩ | ⟨_, _, rfl⟩ | ⟨_, _, rfl⟩ := Tcp.Socket.poll_cases h <;>
    exact ⟨rfl, rfl, rfl⟩

theorem udpLoop_same (fuel : Nat) (ms : List AppMove) (st : UdpState tier) (socket : Udp.Socket) :
    (udpLoop fuel ms st socket).1.handle = st.handle ∧
      (udpLoop fuel ms st socket).2.localPort = socket.localPort := by
  induction fuel generalizing ms st socket
  case zero => exact ⟨rfl, rfl⟩
  case succ fuel hi =>
    simp only [udpLoop]
    split
    case h_1 => exact hi _ _ _
    case h_2 => exact ⟨rfl, rfl⟩

theorem SocketSet.udp?_eq_some {ss : SocketSet} {h : Nat} {socket : Udp.Socket} :
    ss.udp? h = some socket ↔ ss.get? h = some (.udp socket) := by
  unfold udp?
  split <;> simp_all

theorem tryHandleData_upkeep {d : DataIn} {back : Option DataIn}
    (h : tryHandleData s d = some (s', back)) : Upkeep s s' := by
  cases d
  case tcp id data =>
    simp only [tryHandleData] at h
    split at h
    case h_1 => cases h; exact .keep
    case h_2 st hst =>
      split at h
      case isTrue => cases h; exact .keep
      case isFalse => split at h <;> cases h <;> exact .setTcp hst rfl
  case tcpClose id =>
    simp only [tryHandleData] at h
    split at h
    case h_1 => cases h; exact .keep
    case h_2 st hst => cases h; exact .setTcp hst rfl
  case udp id dst data =>
    simp only [tryHandleData] at h
    split at h
    case h_1 => cases h; exact .keep
    case h_2 =>
      have ⟨_, _, he⟩ := map_eq_some_iff.mp h
      cases he
      exact .keep
  case udpClose id =>
    simp only [tryHandleData] at h
    split at h
    case h_1 => cases h; exact .keep
    case h_2 st hst =>
      have ⟨_, _, he⟩ := map_eq_some_iff.mp h
      cases he
      exact .eraseUdp hst

theorem visitTcp_upkeep {q q' : DataQueue tier}
    {eff : List Effect} (h : visitTcp s q id ms = some (s', q', eff)) : Upkeep s s' := by
  unfold visitTcp at h
  split at h
  case h_1 => cases h; exact .keep
  case h_2 =>
    have ⟨e, he, hr⟩ := map_eq_some_iff.mp h
    split at hr
    case h_1 e' _ _ hs => cases hr; exact .writeTcp he <| Entry.service_same (by rw [hs])
    case h_2 => cases hr; exact .eraseTcp he

theorem visitUdp_upkeep (h : visitUdp s id ms = some s') : Upkeep s s' := by
  unfold visitUdp at h
  split at h
  case h_1 => cases h; exact .keep
  case h_2 st hst =>
    have ⟨socket, hs, hr⟩ := map_eq_some_iff.mp h
    have ⟨hh, hp⟩ := udpLoop_same MAX_RECV_CHUNKS ms st socket
    exact hr ▸ .writeUdp hst hh (SocketSet.udp?_eq_some.mp hs) hp

theorem State.enqueue_eq_some {s s' : State tier} {d : DataIn} (h : s.enqueue d = some s') :
    ∃ dataIn, s.dataIn.trySend d = some dataIn ∧ s' = { s with dataIn } := by
  have ⟨dataIn, hq, he⟩ := map_eq_some_iff.mp h
  exact ⟨dataIn, hq, he.symm⟩

-- A step changes the tables in one of few ways and keeps the record of the ports.
structure State.Keeps (s s' : State tier) : Prop where
  upkeep : Upkeep s.stack s'.stack
  allocated : s'.allocated = s.allocated
  serial : s'.serial = s.serial

namespace State

theorem appStep_keeps {s s' : State tier} {event : AppEvent} (h : s.appStep event = some s') : s.Keeps s' := by
  cases event <;> simp only [appStep] at h
  case recv id move =>
    have ⟨st, hst, he⟩ := map_eq_some_iff.mp h
    exact he ▸ ⟨.setTcp hst (Entry.appMove_handle _ _), rfl, rfl⟩
  case udpRecv id move =>
    have ⟨st, hst, he⟩ := map_eq_some_iff.mp h
    exact he ▸ ⟨.setUdp hst rfl, rfl, rfl⟩
  case cancelOpen id =>
    split at h
    case h_1 st hst =>
      split at h
      case isTrue => cases h; exact ⟨.setTcp hst rfl, rfl, rfl⟩
      case isFalse => cases h
    case h_2 => cases h
  case dropSender | udpDropSender =>
    split at h
    case isTrue => cases h; exact ⟨.keep, rfl, rfl⟩
    case isFalse => cases h
  case send | close =>
    split at h
    case isTrue =>
      have ⟨_, hq, he⟩ := map_eq_some_iff.mp h
      have ⟨_, _, hq⟩ := enqueue_eq_some hq
      cases hq
      exact he ▸ ⟨.keep, rfl, rfl⟩
    case isFalse => cases h
  case udpSend | udpClose =>
    split at h
    case isTrue =>
      have ⟨_, _, hq⟩ := enqueue_eq_some h
      exact hq ▸ ⟨.keep, rfl, rfl⟩
    case isFalse => cases h

theorem drainOne_keeps {s s' : State tier} (h : s.drainOne = some s') : s.Keeps s' := by
  unfold drainOne at h
  split at h
  case h_1 => cases h; exact ⟨.keep, rfl, rfl⟩
  case h_2 =>
    have ⟨⟨stack, back⟩, hd, he⟩ := map_eq_some_iff.mp h
    have hu := tryHandleData_upkeep hd
    cases back <;> exact he ▸ ⟨hu, rfl, rfl⟩

theorem ingestOne_keeps {s s' : State tier} (h : s.ingestOne = some s') : s.Keeps s' := by
  unfold ingestOne at h
  split at h
  case isTrue =>
    split at h
    case h_1 => cases h; exact ⟨.keep, rfl, rfl⟩
    case h_2 =>
      have ⟨_, hd, he⟩ := map_eq_some_iff.mp h
      exact he ▸ ⟨tryHandleData_upkeep hd, rfl, rfl⟩
  case isFalse => cases h; exact ⟨.keep, rfl, rfl⟩

theorem step_keeps {s s' : State tier} {l : Label} (h : s.step l = some s') :
    (∃ c connects, l = .cmd c connects ∧ s.command c connects = some s') ∨
    ((∀ c connects, l ≠ .cmd c connects) ∧ s.Keeps s') := by
  cases l <;> simp only [step] at h
  case app event => exact .inr ⟨nofun, appStep_keeps h⟩
  case cmd c connects =>
    split at h
    case isTrue => exact .inl ⟨c, connects, rfl, h⟩
    case isFalse => cases h
  case tcpMove id m =>
    split at h
    case isTrue =>
      have ⟨e, he, h⟩ := bind_eq_some_iff.mp h
      have ⟨socket, hs, h⟩ := map_eq_some_iff.mp h
      exact .inr ⟨nofun, h ▸ ⟨.writeTcp he (Entry.poll_same hs), rfl, rfl⟩⟩
    case isFalse => cases h
  case udpArrives id src data =>
    split at h
    case isTrue =>
      have ⟨st, hst, h⟩ := bind_eq_some_iff.mp h
      have ⟨socket, hs, h⟩ := map_eq_some_iff.mp h
      exact .inr ⟨nofun, h ▸ ⟨.writeUdp hst rfl (SocketSet.udp?_eq_some.mp hs) rfl, rfl, rfl⟩⟩
    case isFalse => cases h
  case visitTcp ms =>
    split at h
    case h_1 =>
      have ⟨⟨stack, dataIn, eff⟩, hv, he⟩ := map_eq_some_iff.mp h
      exact .inr ⟨nofun, he ▸ ⟨visitTcp_upkeep hv, rfl, rfl⟩⟩
    case h_2 => cases h
  case visitUdp ms =>
    split at h
    case h_1 =>
      have ⟨stack, hv, he⟩ := map_eq_some_iff.mp h
      exact .inr ⟨nofun, he ▸ ⟨visitUdp_upkeep hv, rfl, rfl⟩⟩
    case h_2 => cases h
  case drain =>
    split at h
    case isTrue => exact .inr ⟨nofun, drainOne_keeps h⟩
    case isFalse => cases h
  case ingest =>
    split at h
    case isTrue => exact .inr ⟨nofun, ingestOne_keeps h⟩
    case isFalse => cases h
  all_goals
    split at h
    case isTrue => cases h; exact .inr ⟨nofun, .keep, rfl, rfl⟩
    case isFalse => cases h

theorem command_tables {s s' : State tier} {c : Cmd} {connects : Bool}
    (h : s.command c connects = some s') (t : Tables s.stack) : Tables s'.stack := by
  have ⟨⟨stack, dataIn⟩, hc, he⟩ := map_eq_some_iff.mp h
  rw [← he]
  cases c <;> simp only [handleCmd] at hc
  case openTcp dst resp =>
    cases connects <;> simp at hc
    case true => exact hc.left ▸ t.addTcp
    case false => exact hc.left ▸ { t with }
  case openUdp resp =>
    simp at hc
    exact hc.left ▸ t.addUdp
  case setAddrs v4 v6 =>
    have ⟨iface, _, hs⟩ := map_eq_some_iff.mp hc
    cases hs
    exact { t with }

theorem step_tables {s s' : State tier} {l : Label} (t : Tables s.stack) (h : s.step l = some s') :
    Tables s'.stack := by
  obtain ⟨_, _, _, hc⟩ | ⟨_, hk⟩ := step_keeps h
  case inl => exact command_tables hc t
  case inr => exact t.upkeep hk.upkeep

end State

end Engine.Netstack
