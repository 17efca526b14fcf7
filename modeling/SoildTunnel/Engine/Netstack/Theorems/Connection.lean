import SoildTunnel.Engine.Netstack.Connection
import SoildTunnel.Engine.Netstack.Theorems.Tables

-- The stack moves each of its connections by the steps of one connection.
namespace Engine.Netstack

open List Function Option Nat

variable {tier : Tier} {s : NetStack tier} {id : Nat} {ms : List AppMove} {st : TcpState tier}

section Entries

variable {e e' : Entry tier} (k : Nat)

theorem entryOf_none (h : s.tcpConns id = none) : entryOf s id = none := by
  simp [entryOf, h]

theorem entryOf_writeEntry (t : Tables s) (he : entryOf s id = some e) (hs : e.Same e') :
    entryOf (writeEntry s id e') k = if k = id then some e' else entryOf s k := by
  have ⟨hst, hsock⟩ := entryOf_eq_some.mp he
  have hp := Slab.get?_put (hs.handle ▸ hsock)
  split
  case isTrue hk =>
    rw [entryOf_eq_some]
    simp [writeEntry, NetStack.setTcp, hk, hp]
  case isFalse hk =>
    have hne {st} (h : s.tcpConns k = some st) : st.handle ≠ e'.st.handle := by
      intro hh
      exact hk (t.tcp_injective h hst (hh.trans hs.handle))
    simp only [entryOf, writeEntry, NetStack.setTcp, update_of_ne hk, SocketSet.tcp?, hp]
    cases h : s.tcpConns k
    case none => rfl
    case some st => simp [hne h]

theorem entryOf_eraseTcp (t : Tables s) (he : entryOf s id = some e) :
    entryOf (s.eraseTcp id e.st.handle) k = if k = id then none else entryOf s k := by
  have ⟨hst, _⟩ := entryOf_eq_some.mp he
  split
  case isTrue hk => exact entryOf_none (by simp [NetStack.eraseTcp, hk])
  case isFalse hk =>
    have hne {st} (h : s.tcpConns k = some st) : st.handle ≠ e.st.handle :=
      fun hh => hk (t.tcp_injective h hst hh)
    simp only [entryOf, NetStack.eraseTcp, update_of_ne hk, SocketSet.tcp?, Slab.get?_remove]
    cases h : s.tcpConns k
    case none => rfl
    case some st => simp [hne h]

theorem entryOf_setTcp (he : entryOf s id = some e) (hh : st.handle = e.st.handle) :
    entryOf (s.setTcp id st) k = if k = id then some { e with st } else entryOf s k := by
  have ⟨_, hsock⟩ := entryOf_eq_some.mp he
  split
  case isTrue hk =>
    rw [entryOf_eq_some]
    simp [NetStack.setTcp, hk, hh, hsock]
  case isFalse hk => simp [entryOf, NetStack.setTcp, update_of_ne hk]

theorem entryOf_writeUdp {st : UdpState tier} {socket socket' : Udp.Socket} (t : Tables s)
    (hs : s.sockets.get? st.handle = some (.udp socket)) :
    entryOf (writeUdp s id st socket') k = entryOf s k := by
  have hp := Slab.get?_put hs
  simp only [entryOf, writeUdp, NetStack.setUdp, SocketSet.tcp?, hp]
  cases h : s.tcpConns k
  case none => rfl
  case some st' =>
    obtain ⟨_, hk⟩ := t.tcp_socket h
    have hne : st'.handle ≠ st.handle := by
      intro hh
      simp [hh, hs] at hk
    simp [hne]

theorem entryOf_eraseUdp {st : UdpState tier} (t : Tables s) (h : s.udpConns id = some st) :
    entryOf (s.eraseUdp id st.handle) k = entryOf s k := by
  obtain ⟨_, hs⟩ := t.udp_socket h
  simp only [entryOf, NetStack.eraseUdp, SocketSet.tcp?, Slab.get?_remove]
  cases h : s.tcpConns k
  case none => rfl
  case some st' =>
    obtain ⟨_, hk⟩ := t.tcp_socket h
    have hne : st'.handle ≠ st.handle := by
      intro hh
      simp [hh, hs] at hk
    simp [hne]

theorem entryOf_visitUdp {s' : NetStack tier} (t : Tables s)
    (h : visitUdp s id ms = some s') : entryOf s' k = entryOf s k := by
  unfold visitUdp at h
  split at h
  case h_1 => cases h; rfl
  case h_2 st hst =>
    have ⟨socket, hs, hr⟩ := map_eq_some_iff.mp h
    have ⟨hh, _⟩ := udpLoop_same MAX_RECV_CHUNKS ms st socket
    exact hr ▸ entryOf_writeUdp k t (hh ▸ SocketSet.udp?_eq_some.mp hs)

theorem tcp?_add {a : Socket} (t : Tables s) (h : s.tcpConns k = some st) :
    SocketSet.tcp? (s.sockets.add a).1 st.handle = s.sockets.tcp? st.handle := by
  have ⟨_, hk⟩ := t.tcp_socket h
  have hf := s.sockets.get?_add_handle a
  have hne : st.handle ≠ (s.sockets.add a).2 := by
    intro hh
    simp [← hh, hk] at hf
  simp only [SocketSet.tcp?, Slab.get?_add, if_neg hne]

theorem entryOf_addTcp (t : Tables s) (dst : SocketAddr) (resp : Requester) (hk : k ≠ s.nextId) :
    entryOf (addTcp s dst resp) k = entryOf s k := by
  simp only [entryOf, addTcp, update_of_ne hk]
  cases h : s.tcpConns k
  case none => rfl
  case some st => simp [tcp?_add k t h]

theorem entryOf_addTcp_nextId (s : NetStack tier) (dst : SocketAddr) (resp : Requester) :
    ∃ e, entryOf (addTcp s dst resp) s.nextId = some e ∧ e.Fresh := by
  refine ⟨⟨_, newTcpSocket tier dst s.nextPort⟩, entryOf_eq_some.mpr ⟨update_self .., ?_⟩, ?_⟩
  · exact (Slab.get?_add ..).trans (if_pos rfl)
  · constructor <;> simp [newTcpSocket, newRing]

theorem entryOf_addUdp (t : Tables s) (resp : Requester) : entryOf (addUdp s resp) k = entryOf s k := by
  simp only [entryOf, addUdp]
  cases h : s.tcpConns k
  case none => rfl
  case some st => simp [tcp?_add k t h]

end Entries

theorem Tables.entryOf (t : Tables s) (h : s.tcpConns id = some st) : ∃ socket, entryOf s id = some ⟨st, socket⟩ := by
  have ⟨socket, hs⟩ := t.tcp_socket h
  exact ⟨socket, entryOf_eq_some.mpr ⟨h, hs⟩⟩

theorem sendFromDrop_queue (q : DataQueue tier) (d : DataIn) :
    (sendFromDrop q d).queue = q.queue ++ if (q.trySend d).isSome then [d] else [] := by
  unfold sendFromDrop
  cases h : q.trySend d
  case none => simp
  case some q' => simp [(Mpsc.trySend_eq_some h).right.right.left]

def Effect.isTransfer : Effect → Bool
  | .handed _ | .closed | .delivered _ | .receiverDropped => true
  | _ => false

namespace Entry

theorem announce_queue (id k : Nat) (e : Entry tier) (q : DataQueue tier) :
    (e.announce id q).2.1.queue.filterMap (DataIn.msgFor k) =
      q.queue.filterMap (DataIn.msgFor k) ++
        if k = id then (e.announce id q).2.2.filterMap Effect.closing else [] := by
  unfold announce
  split
  case isFalse => simp
  case isTrue =>
    split
    case h_2 =>
      by_cases hk : id = k <;> cases hq : (q.trySend (.tcpClose id)).isSome <;>
        simp_all [sendFromDrop_queue, DataIn.msgFor, Effect.closing, @eq_comm Nat k id]
    all_goals simp [Effect.closing]

-- Between the answer to the open request and the end of a round, bytes go to and fro and the socket is closed.
theorem handOver_transfers (e : Entry tier) : ∀ x ∈ e.handOver.2, x.isTransfer := by
  simp only [handOver]
  split <;> simp [Effect.isTransfer]

theorem closeDrained_transfers (e : Entry tier) : ∀ x ∈ e.closeDrained.2, x.isTransfer := by
  unfold closeDrained
  split <;> simp [Effect.isTransfer]

theorem appMove_transfers (m : AppMove) (st : TcpState tier) : ∀ x ∈ (st.appMove m).2, x.isTransfer := by
  unfold TcpState.appMove
  split
  case isTrue => exact forall_mem_nil _
  case isFalse => split <;> simp [Effect.isTransfer]

theorem recvLoop_transfers (fuel : Nat) (ms : List AppMove) (e : Entry tier) :
    ∀ x ∈ (e.recvLoop fuel ms).2.2, x.isTransfer := by
  induction fuel generalizing ms e
  case zero => exact forall_mem_nil _
  case succ fuel hi =>
    have hm := appMove_transfers (ms.headD {}) e.st
    simp only [recvLoop]
    split
    case h_1 => exact hm
    case h_2 => exact hm
    case h_3 =>
      split
      case isTrue => exact forall_mem_append.mpr ⟨hm, forall_mem_cons.mpr ⟨rfl, hi _ _⟩⟩
      case isFalse => exact hm

theorem closeGone_transfers (exit : Exit) (e : Entry tier) : ∀ x ∈ (e.closeGone exit).2, x.isTransfer := by
  unfold closeGone
  split <;> simp [Effect.isTransfer]

theorem exchange_transfers (ms : List AppMove) (e : Entry tier) : ∀ x ∈ (e.exchange ms).2, x.isTransfer := by
  simp only [exchange, forall_mem_append]
  exact ⟨⟨⟨handOver_transfers _, closeDrained_transfers _⟩, recvLoop_transfers _ _ _⟩, closeGone_transfers _ _⟩

theorem exchange_closing (ms : List AppMove) (e : Entry tier) : (e.exchange ms).2.filterMap Effect.closing = [] := by
  refine filterMap_eq_nil_iff.mpr fun x hx => ?_
  have ht := exchange_transfers ms e x hx
  cases x
  case orphaned => cases ht
  all_goals rfl

theorem settle_closing (e : Entry tier) : e.settle.2.filterMap Effect.closing = [] := by
  unfold settle
  split
  case h_1 => rfl
  case h_2 => split <;> rfl
  case h_3 => split <;> rfl
  case h_4 => rfl

theorem service_queue (id k : Nat) (ms : List AppMove) (e : Entry tier) (q : DataQueue tier) :
    (e.service id ms q).2.1.queue.filterMap (DataIn.msgFor k) =
      q.queue.filterMap (DataIn.msgFor k) ++
        if k = id then (e.service id ms q).2.2.filterMap Effect.closing else [] := by
  simp only [service]
  split
  case isTrue =>
    have hr (o : Option Requester) :
        (o.map fun _ => Effect.refused).toList.filterMap Effect.closing = [] := by
      cases o <;> rfl
    have hd : [Effect.discarded].filterMap Effect.closing = [] := rfl
    simp [announce_queue, hr, hd]
  case isFalse =>
    simp [announce_queue, exchange_closing, settle_closing]

end Entry

namespace State

variable {s' : State tier}

theorem view_eq {s : State tier} (he : entryOf s'.stack id = entryOf s.stack id) (hl : s'.log id = s.log id)
    (hq : s'.queue.filterMap (DataIn.msgFor id) = s.queue.filterMap (DataIn.msgFor id)) :
    s'.view id = s.view id :=
  View.ext he hl hq

theorem view_same {s : State tier} (h : s'.view id = s.view id) : View.Move (s.view id) (s'.view id) :=
  h ▸ .same

theorem tryHandleData_view {s : State tier} {d : DataIn} {back : Option DataIn}
    {rest : List DataIn} (t : Tables s.stack) (h : tryHandleData s.stack d = some (s'.stack, back))
    (hl : s'.log = s.log) (hq : s.queue = d :: rest) (hq' : s'.queue = back.toList ++ rest) :
    View.Move (s.view id) (s'.view id) := by
  cases d
  case tcp k data =>
    simp only [tryHandleData] at h
    split at h
    case h_1 hst =>
      simp only [Option.some.injEq, Prod.mk.injEq] at h
      simp only [view, hl, hq, hq', ← h.left, ← h.right]
      by_cases hk : k = id
      case pos =>
        rw [entryOf_none (hk ▸ hst)]
        simpa [DataIn.msgFor, hk] using .ignored
      case neg => simpa [DataIn.msgFor, hk] using .same
    case h_2 st hst =>
      obtain ⟨socket, he⟩ := t.entryOf hst
      have hset {st' : TcpState tier} (hh : st'.handle = st.handle) := entryOf_setTcp (k := id) he hh
      split at h
      case isTrue =>
        simp only [Option.some.injEq, Prod.mk.injEq] at h
        exact view_same <| view_eq (by rw [h.left]) (by rw [hl]) (by rw [hq, hq', ← h.right]; rfl)
      case isFalse =>
        split at h <;> simp only [Option.some.injEq, Prod.mk.injEq] at h
        case isTrue =>
          simp only [view, hl, hq, hq', ← h.left, ← h.right, hset]
          by_cases hk : k = id
          case pos => simpa [DataIn.msgFor, hk, hk ▸ he] using .taken
          case neg => simpa [DataIn.msgFor, hk, Ne.symm hk] using .same
        case isFalse =>
          simp only [view, hl, hq, hq', ← h.left, ← h.right, hset]
          by_cases hk : k = id
          case pos => simpa [DataIn.msgFor, hk, hk ▸ he] using .takenPart
          case neg => simpa [DataIn.msgFor, hk, Ne.symm hk] using .same
  case tcpClose k =>
    simp only [tryHandleData] at h
    split at h
    case h_1 hst =>
      simp only [Option.some.injEq, Prod.mk.injEq] at h
      simp only [view, hl, hq, hq', ← h.left, ← h.right]
      by_cases hk : k = id
      case pos =>
        rw [entryOf_none (hk ▸ hst)]
        simpa [DataIn.msgFor, hk] using .ignored
      case neg => simpa [DataIn.msgFor, hk] using .same
    case h_2 st hst =>
      obtain ⟨socket, he⟩ := t.entryOf hst
      have hset {st' : TcpState tier} (hh : st'.handle = st.handle) := entryOf_setTcp (k := id) he hh
      simp only [Option.some.injEq, Prod.mk.injEq] at h
      simp only [view, hl, hq, hq', ← h.left, ← h.right, hset]
      by_cases hk : k = id
      case pos => simpa [DataIn.msgFor, hk, hk ▸ he] using .halfClosed
      case neg => simpa [DataIn.msgFor, hk, Ne.symm hk] using .same
  case udp k dst data =>
    simp only [tryHandleData] at h
    split at h
    case h_1 =>
      simp only [Option.some.injEq, Prod.mk.injEq] at h
      refine view_same <| view_eq (by rw [h.left]) (by rw [hl]) ?_
      simp [hq, hq', ← h.right, filterMap_cons, DataIn.msgFor]
    case h_2 =>
      obtain ⟨_, _, hr⟩ := map_eq_some_iff.mp h
      rw [Prod.mk.injEq] at hr
      refine view_same <| view_eq (by rw [hr.left]) (by rw [hl]) ?_
      simp [hq, hq', ← hr.right, filterMap_cons, DataIn.msgFor]
  case udpClose k =>
    simp only [tryHandleData] at h
    split at h
    case h_1 =>
      simp only [Option.some.injEq, Prod.mk.injEq] at h
      refine view_same <| view_eq (by rw [h.left]) (by rw [hl]) ?_
      simp [hq, hq', ← h.right, filterMap_cons, DataIn.msgFor]
    case h_2 st hst =>
      obtain ⟨_, _, hr⟩ := map_eq_some_iff.mp h
      rw [Prod.mk.injEq] at hr
      refine view_same <| view_eq ?_ (by rw [hl]) ?_
      · rw [← hr.left, entryOf_eraseUdp _ t hst]
      · simp [hq, hq', ← hr.right, filterMap_cons, DataIn.msgFor]

theorem view_push {s : State tier} {x : List DataIn} (he : entryOf s'.stack id = entryOf s.stack id)
    (hd : s'.deferred = s.deferred) (hq : s'.dataIn.queue = s.dataIn.queue ++ x)
    (h : View.Move (s.view id)
      ⟨(s.view id).entry, s'.log id, (s.view id).inbox ++ x.filterMap (DataIn.msgFor id)⟩) :
    View.Move (s.view id) (s'.view id) := by
  have hv : s'.view id =
      ⟨(s.view id).entry, s'.log id, (s.view id).inbox ++ x.filterMap (DataIn.msgFor id)⟩ := by
    simp [view, queue, he, hd, hq]
  exact hv ▸ h

theorem view_push_of_ne {s : State tier} {x : List DataIn} (he : entryOf s'.stack id = entryOf s.stack id)
    (hd : s'.deferred = s.deferred) (hq : s'.dataIn.queue = s.dataIn.queue ++ x)
    (hl : s'.log id = s.log id) (hx : x.filterMap (DataIn.msgFor id) = []) :
    View.Move (s.view id) (s'.view id) := by
  refine view_push he hd hq ?_
  rw [hl, hx, append_nil]
  exact .same

variable {k : Nat}

theorem appStep_send {s : State tier} {data : Bytes} (h : s.appStep (.send k data) = some s') :
    s.Sends (.app (.send k data)) k data ∧ s'.view k = (s.view k).sent data ∧
      ∀ id ≠ k, s'.view id = s.view id := by
  simp only [appStep] at h
  split at h
  case isTrue hs =>
    obtain ⟨s₁, hq, he⟩ := map_eq_some_iff.mp h
    obtain ⟨q, hq, hs₁⟩ := enqueue_eq_some hq
    have hp := (Mpsc.trySend_eq_some hq).right.right.left
    cases hs₁
    cases he
    refine ⟨⟨rfl, hs⟩, ?_, fun id hk => ?_⟩
    · simp [view, queue, setLog, hp, DataIn.msgFor, View.sent]
    · simp [view, queue, setLog, hp, DataIn.msgFor, hk, Ne.symm hk]
  case isFalse => cases h

theorem close_view {s : State tier} (h : s.appStep (.close k) = some s') : View.Move (s.view id) (s'.view id) := by
  simp only [appStep] at h
  obtain ⟨hs, h⟩ := ite_none_right_eq_some.mp h
  obtain ⟨s₁, hq, he⟩ := map_eq_some_iff.mp h
  obtain ⟨q, hq, hs₁⟩ := enqueue_eq_some hq
  have hp := (Mpsc.trySend_eq_some hq).right.right.left
  cases hs₁
  cases he
  by_cases hk : id = k
  case pos =>
    subst hk
    refine view_push rfl rfl hp ?_
    simpa [setLog, DataIn.msgFor] using .closeSent hs
  case neg => exact view_push_of_ne rfl rfl hp (update_of_ne hk ..) (by simp [DataIn.msgFor, Ne.symm hk])

theorem dropSender_view {s : State tier} (h : s.appStep (.dropSender k) = some s') :
    View.Move (s.view id) (s'.view id) := by
  simp only [appStep] at h
  obtain ⟨hs, h⟩ := ite_none_right_eq_some.mp h
  cases h
  have hp := sendFromDrop_queue s.dataIn (.tcpClose k)
  by_cases hk : id = k
  case pos =>
    subst hk
    refine view_push rfl rfl hp ?_
    have hx : (if (s.dataIn.trySend (.tcpClose id)).isSome then [DataIn.tcpClose id] else []).filterMap
        (DataIn.msgFor id) = if (s.dataIn.trySend (.tcpClose id)).isSome then [.close] else [] := by
      split <;> simp [DataIn.msgFor]
    rw [hx]
    simpa [setLog] using .senderDropped hs
  case neg =>
    refine view_push_of_ne rfl rfl hp (update_of_ne hk ..) ?_
    split <;> simp [DataIn.msgFor, Ne.symm hk]

theorem recv_view {s : State tier} {move : AppMove} (t : Tables s.stack)
    (h : s.appStep (.recv k move) = some s') : View.Move (s.view id) (s'.view id) := by
  obtain ⟨st, hst, he⟩ := map_eq_some_iff.mp h
  obtain ⟨socket, hsock⟩ := t.entryOf hst
  cases he
  have hg := entryOf_setTcp (k := id) hsock (Entry.appMove_handle move st)
  by_cases hk : id = k
  case pos =>
    subst hk
    simp only [view, queue, record, setLog, hg, if_true, hsock, update_self]
    exact .appMoved
  case neg =>
    refine view_same <| view_eq ?_ (update_of_ne hk ..) rfl
    exact hg.trans (if_neg hk)

theorem cancelOpen_view {s : State tier} (t : Tables s.stack) (h : s.appStep (.cancelOpen k) = some s') :
    View.Move (s.view id) (s'.view id) := by
  simp only [appStep] at h
  split at h
  case h_2 => cases h
  case h_1 st hst =>
    obtain ⟨hc, h⟩ := ite_none_right_eq_some.mp h
    obtain ⟨socket, hsock⟩ := t.entryOf hst
    cases h
    have hg : entryOf (s.stack.setTcp k { st with connectResp := some .gone }) id = _ :=
      entryOf_setTcp id hsock rfl
    by_cases hk : id = k
    case pos =>
      subst hk
      simp only [view, queue, hg, if_true, hsock]
      exact .cancelled hc
    case neg => exact view_same <| view_eq (hg.trans (if_neg hk)) rfl rfl

theorem enqueue_view {s : State tier} {d : DataIn} (hd : d.msgFor id = none) (h : s.enqueue d = some s') :
    View.Move (s.view id) (s'.view id) := by
  obtain ⟨q, hq, hs⟩ := enqueue_eq_some h
  have hp := (Mpsc.trySend_eq_some hq).right.right.left
  cases hs
  exact view_push_of_ne rfl rfl hp rfl (by simp [hd])

theorem udpDropSender_view {s : State tier} (h : s.appStep (.udpDropSender k) = some s') :
    View.Move (s.view id) (s'.view id) := by
  simp only [appStep] at h
  obtain ⟨-, h⟩ := ite_none_right_eq_some.mp h
  cases h
  have hp := sendFromDrop_queue s.dataIn (.udpClose k)
  have hx : (if (s.dataIn.trySend (.udpClose k)).isSome then [DataIn.udpClose k] else []).filterMap
      (DataIn.msgFor id) = [] := by
    split <;> simp [DataIn.msgFor]
  exact view_push_of_ne rfl rfl hp rfl hx

theorem appStep_view {s : State tier} {event : AppEvent} (t : Tables s.stack) (hl : ∀ k data, event ≠ .send k data)
    (h : s.appStep event = some s') : View.Move (s.view id) (s'.view id) := by
  cases event
  case send k data => exact absurd rfl (hl k data)
  case close k => exact close_view h
  case dropSender k => exact dropSender_view h
  case recv k move => exact recv_view t h
  case cancelOpen k => exact cancelOpen_view t h
  case udpSend k dst data =>
    simp only [appStep] at h
    split_ifs at h
    exact enqueue_view rfl h
  case udpClose k =>
    simp only [appStep] at h
    split_ifs at h
    exact enqueue_view rfl h
  case udpDropSender k => exact udpDropSender_view h
  case udpRecv k move =>
    obtain ⟨st, hst, he⟩ := map_eq_some_iff.mp h
    cases he
    exact view_same <| view_eq rfl rfl rfl

theorem drainOne_view {s : State tier} (t : Tables s.stack) (h : s.drainOne = some s') :
    View.Move (s.view id) (s'.view id) := by
  unfold drainOne at h
  split at h
  case h_1 => cases h; exact .same
  case h_2 d ds hd =>
    have ⟨⟨stack, back⟩, ht, he⟩ := map_eq_some_iff.mp h
    have hq : s.queue = d :: (ds ++ s.dataIn.queue) := by simp [queue, hd]
    cases back <;> cases he <;> exact tryHandleData_view t ht rfl hq rfl

theorem ingestOne_view {s : State tier} (t : Tables s.stack) (h : s.ingestOne = some s') :
    View.Move (s.view id) (s'.view id) := by
  unfold ingestOne at h
  split at h
  case isTrue hd =>
    split at h
    case h_1 => cases h; exact .same
    case h_2 d q hr =>
      have ⟨⟨stack, back⟩, ht, he⟩ := map_eq_some_iff.mp h
      have hq : s.queue = d :: q.queue := by simp [queue, hd, (Mpsc.recv_eq_some hr).left]
      cases he
      exact tryHandleData_view t ht rfl hq rfl
  case isFalse => cases h; exact .same

theorem visitTcp_spec {s stack : NetStack tier} {q dataIn : DataQueue tier} {eff : List Effect} (t : Tables s)
    (h : visitTcp s q k ms = some (stack, dataIn, eff)) :
    (entryOf s k = none ∧ stack = s ∧ dataIn = q ∧ eff = []) ∨
    ∃ e, entryOf s k = some e ∧ dataIn = (e.service k ms q).2.1 ∧ eff = (e.service k ms q).2.2 ∧
      ∀ id, entryOf stack id = if id = k then (e.service k ms q).1 else entryOf s id := by
  unfold visitTcp at h
  split at h
  case h_1 hst => cases h; exact .inl ⟨entryOf_none hst, rfl, rfl, rfl⟩
  case h_2 =>
    have ⟨e, he, hr⟩ := map_eq_some_iff.mp h
    refine .inr ⟨e, he, ?_⟩
    split at hr
    case h_1 e' _ _ hs =>
      cases hr
      rw [hs]
      exact ⟨rfl, rfl, fun id => entryOf_writeEntry id t he (Entry.service_same (by rw [hs]))⟩
    case h_2 hs =>
      cases hr
      rw [hs]
      exact ⟨rfl, rfl, fun id => entryOf_eraseTcp id t he⟩

theorem command_view {s : State tier} {c : Cmd} {connects : Bool} (t : Tables s.stack)
    (hn : s.view s.stack.nextId = ⟨none, {}, []⟩) (h : s.command c connects = some s') :
    View.Move (s.view id) (s'.view id) := by
  obtain ⟨⟨stack, dataIn⟩, hc, he⟩ := map_eq_some_iff.mp h
  cases c <;> simp only [handleCmd] at hc
  case openTcp dst resp =>
    cases connects
    case true =>
      cases hc
      cases he
      by_cases hk : id = s.stack.nextId
      case pos =>
        subst hk
        obtain ⟨e, he, hf⟩ := entryOf_addTcp_nextId s.stack dst resp
        have hv := View.mk.inj hn
        simp only [view, queue] at hv ⊢
        simp [he, hv]
        exact .opened hf
      case neg => exact view_same <| view_eq (entryOf_addTcp id t dst resp hk) rfl rfl
    case false =>
      cases hc
      cases he
      exact view_same <| view_eq rfl rfl rfl
  case openUdp resp =>
    cases hc
    cases he
    obtain ⟨x, hp, hx⟩ : ∃ x, (if resp = .gone then sendFromDrop s.dataIn (.udpClose s.stack.nextId)
        else s.dataIn).queue = s.dataIn.queue ++ x ∧ x.filterMap (DataIn.msgFor id) = [] := by
      split
      case isTrue => exact ⟨_, sendFromDrop_queue .., by split <;> simp [DataIn.msgFor]⟩
      case isFalse => exact ⟨[], by simp, rfl⟩
    exact view_push_of_ne (entryOf_addUdp id t resp) rfl hp rfl hx
  case setAddrs v4 v6 =>
    obtain ⟨iface, _, hs⟩ := map_eq_some_iff.mp hc
    cases hs
    cases he
    exact view_same <| view_eq rfl rfl rfl

def Unseen (s : State tier) : Prop :=
  ∀ id, s.stack.nextId ≤ id → s.view id = ⟨none, {}, []⟩

theorem step_visitTcp {s : State tier} (t : Tables s.stack) (h : s.step (.visitTcp ms) = some s') :
    (∃ id e, s.Visits (.visitTcp ms) id ms e ∧
      s'.view id = .serviced e (s.log id) (s.view id).inbox id ms s.dataIn ∧
      ∀ k ≠ id, s'.view k = s.view k) ∨
    ((∀ id ms' e, ¬ s.Visits (.visitTcp ms) id ms' e) ∧ ∀ k, s'.view k = s.view k) := by
  simp only [step] at h
  split at h
  case h_2 => cases h
  case h_1 id ids hp =>
    obtain ⟨⟨stack, dataIn, eff⟩, hv, he⟩ := map_eq_some_iff.mp h
    cases he
    obtain ⟨hn, rfl, rfl, rfl⟩ | ⟨e, he, rfl, rfl, hg⟩ := visitTcp_spec t hv
    case inl =>
      refine .inr ⟨?_, fun k => view_eq rfl ?_ rfl⟩
      · rintro k ms' e ⟨_, ⟨ids', hp'⟩, he⟩
        cases hp.symm.trans hp'
        cases hn.symm.trans he
      · by_cases hk : k = id <;> simp [record, setLog, hk]
    case inr =>
      have hq (k : Nat) := e.service_queue id k ms s.dataIn
      refine .inl ⟨id, e, ⟨rfl, ⟨ids, hp⟩, he⟩, ?_, fun k hk => ?_⟩
      · simp [view, queue, record, setLog, hg, hq, View.serviced]
      · refine view_eq ((hg k).trans (if_neg hk)) (update_of_ne hk ..) ?_
        simp [queue, record, setLog, hq, hk]

variable {l : Label}

theorem Visits.unique {s : State tier} {i j : Nat} {ms' : List AppMove}
    {e e' : Entry tier} (h : s.Visits l i ms e) (h' : s.Visits l j ms' e') :
    i = j ∧ ms = ms' ∧ e = e' := by
  obtain ⟨hl, ⟨_, hp⟩, he⟩ := h
  obtain ⟨hl', ⟨_, hp'⟩, he'⟩ := h'
  cases hl.symm.trans hl'
  cases hp.symm.trans hp'
  cases he.symm.trans he'
  exact ⟨rfl, rfl, rfl⟩

-- The refinement: a step of the stack services one connection, or sends to one, or each connection
-- makes a move.
theorem step_cases {s : State tier} (t : Tables s.stack) (hn : s.Unseen) (h : s.step l = some s') :
    (∃ id ms e, s.Visits l id ms e ∧
      s'.view id = .serviced e (s.log id) (s.view id).inbox id ms s.dataIn ∧
      ∀ k ≠ id, s'.view k = s.view k) ∨
    (∃ id data, s.Sends l id data ∧ s'.view id = (s.view id).sent data ∧
      ∀ k ≠ id, s'.view k = s.view k) ∨
    ((∀ id ms e, ¬ s.Visits l id ms e) ∧ (∀ id data, ¬ s.Sends l id data) ∧
      ∀ k, View.Move (s.view k) (s'.view k)) := by
  by_cases hv : ∃ ms, l = .visitTcp ms
  case pos =>
    obtain ⟨ms, rfl⟩ := hv
    obtain ⟨id, e, hs⟩ | ⟨hs, hk⟩ := step_visitTcp t h
    case inl => exact .inl ⟨id, ms, e, hs⟩
    case inr => exact .inr <| .inr ⟨hs, (fun _ _ hs => by cases hs.left), fun k => view_same (hk k)⟩
  case neg =>
  by_cases hd : ∃ k data, l = .app (.send k data)
  case pos =>
    obtain ⟨k, data, rfl⟩ := hd
    exact .inr <| .inl ⟨k, data, appStep_send h⟩
  case neg =>
    refine .inr <| .inr ⟨fun _ ms _ hs => hv ⟨ms, hs.left⟩, fun k data hs => hd ⟨k, data, hs.left⟩,
      fun id => ?_⟩
    cases l <;> simp only [step] at h
    case visitTcp ms => exact absurd ⟨ms, rfl⟩ hv
    case app event => exact appStep_view t (fun k data he => hd ⟨k, data, by rw [he]⟩) h
    case cmd c connects =>
      split at h
      case isTrue => exact command_view t (hn _ (le_refl _)) h
      case isFalse => cases h
    case tcpMove k m =>
      split at h
      case isTrue =>
        obtain ⟨e, he, h⟩ := bind_eq_some_iff.mp h
        obtain ⟨socket, hs, h⟩ := map_eq_some_iff.mp h
        have hg := entryOf_writeEntry id t he (Entry.poll_same hs)
        cases h
        by_cases hk : id = k
        case pos =>
          subst hk
          simp only [view, queue, setLog, hg, if_true, he, update_self]
          exact .moved hs
        case neg => exact view_same <| view_eq (hg.trans (if_neg hk)) (update_of_ne hk ..) rfl
      case isFalse => cases h
    case udpArrives k src data =>
      split at h
      case isTrue =>
        obtain ⟨st, hst, h⟩ := bind_eq_some_iff.mp h
        obtain ⟨socket, hs, h⟩ := map_eq_some_iff.mp h
        cases h
        exact view_same <| view_eq (entryOf_writeUdp id t (SocketSet.udp?_eq_some.mp hs)) rfl rfl
      case isFalse => cases h
    case visitUdp ms =>
      split at h
      case h_1 =>
        obtain ⟨stack, hv, he⟩ := map_eq_some_iff.mp h
        cases he
        exact view_same <| view_eq (entryOf_visitUdp id t hv) rfl rfl
      case h_2 => cases h
    case drain =>
      split at h
      case isTrue => exact drainOne_view t h
      case isFalse => cases h
    case ingest =>
      split at h
      case isTrue => exact ingestOne_view t h
      case isFalse => cases h
    all_goals
      split at h
      case isTrue => cases h; exact .same
      case isFalse => cases h

theorem step_nextId_le {s : State tier} (h : s.step l = some s') : s.stack.nextId ≤ s'.stack.nextId := by
  obtain ⟨c, connects, _, hc⟩ | ⟨_, hk⟩ := step_keeps h
  case inr => exact le_of_eq hk.upkeep.nextId.symm
  case inl =>
    have ⟨⟨stack, dataIn⟩, hs, he⟩ := map_eq_some_iff.mp hc
    rw [← he]
    clear hc he h
    cases c <;> simp only [handleCmd] at hs
    case openTcp dst resp =>
      split at hs
      case isTrue => cases hs; exact le_succ _
      case isFalse => cases hs; exact le_refl _
    case openUdp resp => cases hs; exact le_succ _
    case setAddrs v4 v6 =>
      obtain ⟨iface, _, hi⟩ := map_eq_some_iff.mp hs
      cases hi
      exact le_refl _

theorem step_unseen {s : State tier} (t : Tables s.stack) (hn : s.Unseen) (h : s.step l = some s') : s'.Unseen := by
  intro id hid
  have hv := hn id (le_trans (step_nextId_le h) hid)
  obtain ⟨k, ms, e, ⟨_, _, he⟩, _, hk⟩ | ⟨k, data, ⟨_, hs⟩, _, hk⟩ | ⟨_, _, hm⟩ := step_cases t hn h
  case inl =>
    have hne : id ≠ k := by
      rintro rfl
      cases (congrArg View.entry hv).symm.trans he
    exact (hk id hne).trans hv
  case inr.inl =>
    have hne : id ≠ k := by
      rintro rfl
      have hl : s.log id = {} := congrArg View.log hv
      simp [hl] at hs
    exact (hk id hne).trans hv
  case inr.inr =>
    have he {e} (he : entryOf s'.stack id = some e) : False :=
      Nat.not_lt_of_le hid <| (step_tables t h).tcp_lt (entryOf_eq_some.mp he).left
    have hm := hm id
    rw [hv] at hm
    generalize hv' : s'.view id = v' at hm
    cases hm
    case same => rfl
    case opened => exact (he (congrArg View.entry hv')).elim
    case closeSent hs | senderDropped hs => cases hs

theorem init_unseen (iface : Interface) : (init iface : State tier).Unseen :=
  fun _ _ => rfl

-- The states of a run in which every connection has a property that moves and service keep.
structure Inv (I : View tier → Prop) (s : State tier) : Prop where
  tables : Tables s.stack
  unseen : s.Unseen
  conn id : I (s.view id)

theorem Inv.step {I : View tier → Prop} (hm : ∀ v v', View.Move v v' → I v → I v')
    (hs : ∀ e l b id ms q, I ⟨some e, l, b⟩ → I (.serviced e l b id ms q))
    (hd : ∀ v data, v.log.hasSender → I v → I (v.sent data))
    (s : State tier) (l : Label) (s' : State tier) (hi : s.Inv I) (h : s.step l = some s') :
    s'.Inv I where
  tables := step_tables hi.tables h
  unseen := step_unseen hi.tables hi.unseen h
  conn id := by
    obtain ⟨k, ms, e, ⟨_, _, he⟩, hv, hk⟩ | ⟨k, data, ⟨_, hl⟩, hv, hk⟩ | ⟨_, _, hv⟩ :=
      step_cases hi.tables hi.unseen h
    case inl =>
      by_cases hid : id = k
      case pos =>
        rw [hid, hv]
        refine hs _ _ _ _ _ _ ?_
        rw [← he]
        exact hi.conn k
      case neg => exact hk id hid ▸ hi.conn id
    case inr.inl =>
      by_cases hid : id = k
      case pos =>
        rw [hid, hv]
        exact hd _ _ hl (hi.conn k)
      case neg => exact hk id hid ▸ hi.conn id
    case inr.inr => exact hm _ _ (hv id) (hi.conn id)

theorem init_inv {I : View tier → Prop} (h : I ⟨none, {}, []⟩) (iface : Interface) :
    (init iface : State tier).Inv I :=
  ⟨Tables.init iface, init_unseen iface, fun _ => h⟩

theorem forall_log_iff {P : Log → Prop} {s : State tier} (hp : ∀ k, P (s.log k))
    (hk : ∀ k ≠ id, s'.view k = s.view k) : (∀ k, P (s'.log k)) ↔ P (s'.log id) := by
  refine ⟨fun h => h id, fun h k => ?_⟩
  by_cases hid : k = id
  case pos => exact hid ▸ h
  case neg =>
    have hl : s'.log k = s.log k := congrArg View.log (hk k hid)
    exact hl ▸ hp k

end State

end Engine.Netstack
