import SoildTunnel.Engine.Netstack.Theorems.Service

-- Every request for a connection is answered once, and at the latest when its entry is removed.
namespace Engine.Netstack

open Nat List Bool Option Function

variable {tier : Tier} {id : Nat}

def Effect.isAnswer : Effect → Bool
  | .connected | .orphaned _ | .refused => true
  | _ => false

def State.round? (s : State tier) (ms : List AppMove) : Option (Nat × List Effect) :=
  match s.phase with
  | .serviceTcp (id :: _) => (visitTcp s.stack s.dataIn id ms).map fun r => (id, r.2.2)
  | _ => none

-- The open requests, numbered in the order in which the stack takes them.
structure Ledger where
  requests : Nat := 0
  -- The request that a connection was opened for.
  request : Nat → Option Nat := fun _ => none
  -- How often each request was answered.
  answers : Nat → Nat := fun _ => 0

namespace Ledger

def opened (b : Ledger) (id : Nat) : Ledger :=
  { b with requests := b.requests + 1, request := Function.update b.request id (some b.requests) }

-- A request that the library turns down is answered at once.
def refused (b : Ledger) : Ledger :=
  { b with
    requests := b.requests + 1
    answers := Function.update b.answers b.requests (b.answers b.requests + 1) }

def serviced (b : Ledger) (id : Nat) (eff : List Effect) : Ledger :=
  match b.request id with
  | some r => { b with answers := Function.update b.answers r (b.answers r + eff.countP Effect.isAnswer) }
  | none => b

def observe (s : State tier) (l : Label) (_ : State tier) (b : Ledger) : Ledger :=
  match l with
  | .cmd (.openTcp _ _) true => b.opened s.stack.nextId
  | .cmd (.openTcp _ _) false => b.refused
  | .visitTcp ms =>
    match s.round? ms with
    | some (id, eff) => b.serviced id eff
    | none => b
  | _ => b

end Ledger

-- The tables and the answers, whenever the stack has finished a step.
structure State.Answered (p : State tier × Ledger) : Prop where
  tables : Tables p.1.stack
  -- No lookup fails.
  services (id : Nat) (ms : List AppMove) (q : DataQueue tier) : (visitTcp p.1.stack q id ms).isSome
  servicesUdp (id : Nat) (ms : List AppMove) : (visitUdp p.1.stack id ms).isSome
  handles (d : DataIn) : (tryHandleData p.1.stack d).isSome
  -- Each entry has its request, which is answered once the entry is established.
  request {id st} : p.1.stack.tcpConns id = some st → ∃ r, p.2.request id = some r ∧ r < p.2.requests
  injective {i j r} : p.2.request i = some r → p.2.request j = some r → i = j
  established {id st r} : p.1.stack.tcpConns id = some st → p.2.request id = some r → st.established → p.2.answers r = 1
  once (r : Nat) : p.2.answers r ≤ 1
  -- A request whose entry is gone, or which never had one, is answered.
  removed {id r} : p.2.request id = some r → p.1.stack.tcpConns id = none → p.2.answers r = 1
  refused {r} : r < p.2.requests → (∀ id, p.2.request id ≠ some r) → p.2.answers r = 1

-- The stack can answer the request as long as the connection is not established.
structure Entry.Waits (e : Entry tier) : Prop where
  connectResp : e.st.connectResp.isSome = !e.st.established
  fromStackRx : e.st.fromStackRx = !e.st.established

def answersOf : Option (Entry tier) → Nat
  | some e => if e.st.established then 1 else 0
  | none => 1

theorem answersOf_le (o : Option (Entry tier)) : answersOf o ≤ 1 := by
  unfold answersOf
  split
  case h_1 => split <;> omega
  case h_2 => exact le_refl 1

variable {e : Entry tier}

namespace Entry

theorem exchange_st (ms : List AppMove) (e : Entry tier) :
    ∃ pending toApp, (e.exchange ms).1.st = { e.st with pending, toApp } := by
  obtain ⟨m, ⟨pending, hm⟩, _, hs, _⟩ := exchange_recvLoop ms e
  obtain ⟨toApp, ht⟩ := (recvLoop_delivers MAX_RECV_CHUNKS ms m {}).st
  exact ⟨pending, toApp, by rw [hs, ht, hm]⟩

theorem settle_st {e' : Entry tier} (h : e.settle.1 = some e') : ∃ pending, e'.st = { e.st with pending } := by
  obtain ⟨_, he⟩ | ⟨_, _, he⟩ | ⟨_, _, he⟩ | ⟨_, _, he⟩ := e.settle_cases <;> rw [he] at h <;> cases h
  all_goals exact ⟨_, rfl⟩

theorem settle_answers (e : Entry tier) : answersOf e.settle.1 = answersOf (some e) := by
  obtain ⟨_, he⟩ | ⟨_, h, he⟩ | ⟨_, _, he⟩ | ⟨_, _, he⟩ := e.settle_cases <;> rw [he]
  case inr.inl => exact (if_pos h).symm
  all_goals rfl

theorem countP_isAnswer_exchange (ms : List AppMove) (e : Entry tier) :
    (e.exchange ms).2.countP Effect.isAnswer = 0 := by
  refine countP_eq_zero.mpr fun x hx => ?_
  have ht := exchange_transfers ms e x hx
  cases x
  case handed | closed | delivered | receiverDropped => exact false_ne_true
  all_goals cases ht

theorem countP_isAnswer_settle (e : Entry tier) : e.settle.2.countP Effect.isAnswer = 0 := by
  obtain ⟨_, he⟩ | ⟨_, _, he⟩ | ⟨_, _, he⟩ | ⟨_, _, he⟩ := e.settle_cases <;> rw [he] <;> rfl

namespace Waits

variable {e e' : Entry tier}

theorem of_st (h : e.Waits) {pending : Bytes} {toApp : Mpsc Bytes tier.channelCapacity}
    (hs : e'.st = { e.st with pending, toApp }) : e'.Waits := by
  refine ⟨?_, ?_⟩ <;> rw [hs]
  · exact h.connectResp
  · exact h.fromStackRx

theorem announce (h : e.Waits) (id : Nat) (q : DataQueue tier) : (e.announce id q).1.Waits ∧
      answersOf (some e) + (e.announce id q).2.2.countP Effect.isAnswer = answersOf (some (e.announce id q).1) := by
  unfold Entry.announce
  split
  case isFalse => exact ⟨h, rfl⟩
  case isTrue hc =>
    have hr := h.connectResp
    have hx := h.fromStackRx
    rw [hc.1] at hr hx
    have h0 : answersOf (some e) = 0 := if_neg (by rw [hc.1]; exact false_ne_true)
    rw [h0]
    split
    case h_1 => exact ⟨⟨rfl, rfl⟩, rfl⟩
    case h_2 => exact ⟨⟨rfl, rfl⟩, rfl⟩
    case h_3 hn hg =>
      obtain ⟨r, hr⟩ := isSome_iff_exists.mp hr
      cases r
      case waiting => exact absurd hx (hn hr)
      case gone => exact absurd hx (hg hr)

theorem service (h : e.Waits) (id : Nat) (ms : List AppMove) (q : DataQueue tier) :
    (∀ e', (e.service id ms q).1 = some e' → e'.Waits) ∧
      answersOf (some e) + (e.service id ms q).2.2.countP Effect.isAnswer = answersOf (e.service id ms q).1 := by
  obtain ⟨ha, hn⟩ := h.announce id q
  simp only [Entry.service]
  split
  case isTrue hr =>
    constructor
    · intro e' he
      cases he
    · have hf : (e.announce id q).1.st.established = false := by
        simp only [isRefused, and_eq_true, not_eq_true'] at hr
        exact hr.1
      have hs := ha.connectResp
      rw [hf] at hs
      obtain ⟨r, hs⟩ := isSome_iff_exists.mp hs
      have h0 : answersOf (some (e.announce id q).1) = 0 := if_neg (by rw [hf]; exact false_ne_true)
      rw [h0] at hn
      rw [hs, countP_append, countP_append, ← add_assoc, ← add_assoc, hn]
      rfl
  case isFalse =>
    obtain ⟨pending, toApp, hx⟩ := exchange_st ms (e.announce id q).1
    constructor
    · intro e' he
      obtain ⟨pending', hs⟩ := settle_st he
      exact (ha.of_st hx).of_st hs
    · rw [countP_append, countP_append, countP_isAnswer_exchange, countP_isAnswer_settle]
      refine hn.trans ?_
      rw [settle_answers]
      simp only [answersOf, hx]

end Waits

end Entry

def View.Waits (v : View tier) : Prop :=
  ∀ e, v.entry = some e → e.Waits

theorem View.Move.waits {v v' : View tier} (h : View.Move v v') (hi : v.Waits) : v'.Waits := by
  cases h
  case same => exact hi
  case opened e hf =>
    intro e' he
    cases he
    exact ⟨by rw [hf.connectResp, hf.established]; rfl, by rw [hf.fromStackRx, hf.established]; rfl⟩
  case ignored =>
    intro e he
    cases he
  case appMoved e l b m =>
    intro e' he
    cases he
    obtain ⟨toApp, hs⟩ := (Entry.appMove_delivers m e l).st
    exact (hi e rfl).of_st hs
  case cancelled e l b hs =>
    intro e' he
    cases he
    exact ⟨hs.symm.trans (hi e rfl).connectResp, (hi e rfl).fromStackRx⟩
  case closeSent | senderDropped => exact hi
  all_goals
    intro e' he
    cases he
    exact ⟨(hi _ rfl).connectResp, (hi _ rfl).fromStackRx⟩

theorem View.Move.answers {v v' : View tier} (h : View.Move v v') :
    v'.entry.isSome = v.entry.isSome ∧ answersOf v'.entry = answersOf v.entry ∨
      v.entry = none ∧ v'.entry.isSome := by
  cases h
  case opened => exact .inr ⟨rfl, rfl⟩
  case appMoved e l b m =>
    obtain ⟨toApp, hs⟩ := (Entry.appMove_delivers m e l).st
    refine .inl ⟨rfl, ?_⟩
    simp only at hs
    simp only [answersOf, hs]
  all_goals exact .inl ⟨rfl, rfl⟩

theorem Upkeep.tcp_isSome {s s' : NetStack tier} (h : Upkeep s s') (hs : (s'.tcpConns id).isSome) :
    (s.tcpConns id).isSome := by
  have hu {k : Nat} {st st' : TcpState tier} (hst : s.tcpConns k = some st)
      (hs : (Function.update s.tcpConns k (some st') id).isSome) : (s.tcpConns id).isSome := by
    by_cases hk : id = k
    case pos => rw [hk, hst]; rfl
    case neg => rwa [update_of_ne hk] at hs
  cases h
  case keep | setUdp | writeUdp | eraseUdp => exact hs
  case setTcp hst _ => exact hu hst hs
  case writeTcp he _ => exact hu (entryOf_eq_some.mp he).1 hs
  case eraseTcp =>
    obtain ⟨st, hst⟩ := isSome_iff_exists.mp hs
    rw [(Tables.update_none_eq_some.mp hst).2]
    rfl

theorem Tables.entryOf_isSome {s : NetStack tier} (t : Tables s) : (Netstack.entryOf s id).isSome = (s.tcpConns id).isSome := by
  cases h : s.tcpConns id
  case none => rw [entryOf_none h]; rfl
  case some st =>
    obtain ⟨socket, he⟩ := t.entryOf h
    rw [he]
    rfl

variable {l : Label}

namespace State

theorem command_stack {s s' : State tier} {c : Cmd} {connects : Bool} (h : s.command c connects = some s') :
    ∃ q, handleCmd s.stack s.dataIn connects c = some (s'.stack, q) := by
  obtain ⟨⟨stack, dataIn⟩, hc, he⟩ := map_eq_some_iff.mp h
  cases he
  exact ⟨dataIn, hc⟩

theorem step_tcp_isSome {s s' : State tier} (hl : ∀ dst resp, l ≠ .cmd (.openTcp dst resp) true)
    (h : s.step l = some s') (hs : (s'.stack.tcpConns id).isSome) : (s.stack.tcpConns id).isSome := by
  obtain ⟨c, connects, rfl, hcmd⟩ | ⟨_, hk⟩ := step_keeps h
  case inr => exact hk.upkeep.tcp_isSome hs
  case inl =>
    obtain ⟨q, hc⟩ := command_stack hcmd
    have ht : s'.stack.tcpConns = s.stack.tcpConns := by
      clear hcmd
      cases c <;> simp only [handleCmd] at hc
      case openTcp dst resp =>
        cases connects
        case true => exact absurd rfl (hl dst resp)
        case false => exact (congrArg NetStack.tcpConns (Prod.mk.inj (Option.some.inj hc)).1).symm
      case openUdp resp => exact (congrArg NetStack.tcpConns (Prod.mk.inj (Option.some.inj hc)).1).symm
      case setAddrs v4 v6 =>
        obtain ⟨iface, _, hc⟩ := map_eq_some_iff.mp hc
        exact (congrArg NetStack.tcpConns (Prod.mk.inj hc).1).symm
    exact ht ▸ hs

theorem step_cmd {s s' : State tier} {c : Cmd} {connects : Bool} (h : s.step (.cmd c connects) = some s') :
    s.command c connects = some s' := by
  simp only [step] at h
  split at h
  case isTrue => exact h
  case isFalse => cases h

end State

variable {ms : List AppMove}

namespace State

variable {s : State tier}

theorem Visits.round? (hv : s.Visits l id ms e) : s.round? ms = some (id, (e.service id ms s.dataIn).2.2) := by
  obtain ⟨_, ⟨ids, hp⟩, he⟩ := hv
  have hx : ∃ stack q, visitTcp s.stack s.dataIn id ms = some (stack, q, (e.service id ms s.dataIn).2.2) := by
    simp only [visitTcp, (entryOf_eq_some.mp he).1, he, map_some]
    split <;> rename_i hs <;> rw [hs] <;> exact ⟨_, _, rfl⟩
  obtain ⟨stack, q, hx⟩ := hx
  simp only [State.round?, hp, hx, map_some]

theorem round?_of_not_visits (t : Tables s.stack) (hv : ∀ id e, ¬ s.Visits (.visitTcp ms) id ms e) :
    s.round? ms = none ∨ ∃ id, s.round? ms = some (id, []) := by
  unfold round?
  split
  case h_2 => exact .inl rfl
  case h_1 id ids hp =>
    have hn : s.stack.tcpConns id = none := by
      refine eq_none_iff_forall_ne_some.mpr fun st hst => ?_
      obtain ⟨socket, he⟩ := t.entryOf hst
      exact hv id _ ⟨rfl, ⟨ids, hp⟩, he⟩
    simp only [visitTcp, hn, map_some]
    exact .inr ⟨id, rfl⟩

end State

-- The lookups of the event loop.
namespace Tables

variable {s : NetStack tier}

theorem visitTcp_isSome (t : Tables s) (id : Nat) (ms : List AppMove) (q : DataQueue tier) :
    (visitTcp s q id ms).isSome := by
  unfold visitTcp
  split
  case h_1 => rfl
  case h_2 st hst =>
    obtain ⟨socket, he⟩ := t.entryOf hst
    rw [he]
    rfl

theorem visitUdp_isSome (t : Tables s) (id : Nat) (ms : List AppMove) : (visitUdp s id ms).isSome := by
  unfold visitUdp
  split
  case h_1 => rfl
  case h_2 st hst =>
    obtain ⟨socket, hs⟩ := t.udp_socket hst
    rw [SocketSet.udp?_eq_some.mpr hs]
    rfl

theorem tryHandleData_isSome (t : Tables s) (d : DataIn) : (tryHandleData s d).isSome := by
  cases d <;> simp only [tryHandleData]
  case tcp id data =>
    split
    case h_1 => rfl
    case h_2 =>
      split
      case isTrue => rfl
      case isFalse => split <;> rfl
  case tcpClose id => split <;> rfl
  case udp id dst data =>
    split
    case h_1 => rfl
    case h_2 st hst =>
      obtain ⟨socket, hs⟩ := t.udp_socket hst
      rw [SocketSet.udp?_eq_some.mpr hs]
      rfl
  case udpClose id =>
    split
    case h_1 => rfl
    case h_2 st hst =>
      obtain ⟨socket, hs⟩ := t.udp_socket hst
      rw [hs]
      rfl

end Tables

namespace Ledger

structure Agrees (b : Ledger) (s : NetStack tier) : Prop where
  known (id : Nat) : (entryOf s id).isSome → (b.request id).isSome
  lt {id r : Nat} : b.request id = some r → id < s.nextId ∧ r < b.requests
  answers {id r : Nat} : b.request id = some r → b.answers r = answersOf (entryOf s id)
  injective {i j r : Nat} : b.request i = some r → b.request j = some r → i = j
  unopened {r : Nat} : (∀ id, b.request id ≠ some r) → b.answers r = if r < b.requests then 1 else 0

theorem init_agrees (iface : Interface) : ({} : Ledger).Agrees (State.init iface : State tier).stack := by
  constructor
  case known =>
    intro id hs
    cases hs
  case unopened => exact fun _ => rfl
  all_goals exact nofun

namespace Agrees

variable {b : Ledger} {s s' : NetStack tier}

theorem keep (h : b.Agrees s) (hn : s.nextId ≤ s'.nextId)
    (he : ∀ id, (entryOf s' id).isSome = (entryOf s id).isSome ∧ answersOf (entryOf s' id) = answersOf (entryOf s id)) :
    b.Agrees s' where
  known id hs := h.known id ((he id).1 ▸ hs)
  lt hr := ⟨lt_of_lt_of_le (h.lt hr).1 hn, (h.lt hr).2⟩
  answers hr := (h.answers hr).trans (he _).2.symm
  injective := h.injective
  unopened := h.unopened

theorem answers_requests (h : b.Agrees s) : b.answers b.requests = 0 :=
  (h.unopened fun _ hr => lt_irrefl _ (h.lt hr).2).trans (if_neg (lt_irrefl _))

theorem opened (h : b.Agrees s) (hn : s'.nextId = s.nextId + 1)
    (he : ∀ id ≠ s.nextId, entryOf s' id = entryOf s id) (hf : entryOf s' s.nextId = some e) (hs : e.st.established = false) :
    (b.opened s.nextId).Agrees s' := by
  have hr {id r : Nat} : (b.opened s.nextId).request id = some r ↔
      id = s.nextId ∧ r = b.requests ∨ id ≠ s.nextId ∧ b.request id = some r := by
    by_cases hid : id = s.nextId
    case pos => simp [Ledger.opened, hid, eq_comm]
    case neg => simp [Ledger.opened, hid]
  constructor
  case known =>
    intro id hsome
    by_cases hid : id = s.nextId
    case pos => exact isSome_iff_exists.mpr ⟨_, hr.mpr (.inl ⟨hid, rfl⟩)⟩
    case neg =>
      obtain ⟨r, hr'⟩ := isSome_iff_exists.mp (h.known id (he id hid ▸ hsome))
      exact isSome_iff_exists.mpr ⟨r, hr.mpr (.inr ⟨hid, hr'⟩)⟩
  case lt =>
    intro id r hx
    obtain ⟨rfl, rfl⟩ | ⟨_, hx⟩ := hr.mp hx
    · exact ⟨hn ▸ lt_succ_self _, lt_succ_self _⟩
    · exact ⟨hn ▸ lt_succ_of_lt (h.lt hx).1, lt_succ_of_lt (h.lt hx).2⟩
  case answers =>
    intro id r hx
    obtain ⟨rfl, rfl⟩ | ⟨hid, hx⟩ := hr.mp hx
    · rw [hf]
      refine h.answers_requests.trans (if_neg ?_).symm
      rw [hs]
      exact false_ne_true
    · rw [he id hid]
      exact h.answers hx
  case injective =>
    intro i j r hi hj
    obtain ⟨rfl, rfl⟩ | ⟨_, hi'⟩ := hr.mp hi <;> obtain ⟨rfl, hr'⟩ | ⟨_, hj'⟩ := hr.mp hj
    · rfl
    · exact absurd (h.lt hj').2 (lt_irrefl _)
    · exact absurd (hr' ▸ (h.lt hi').2) (lt_irrefl _)
    · exact h.injective hi' hj'
  case unopened =>
    intro r hx
    have hne : r ≠ b.requests := fun he => hx s.nextId (hr.mpr (.inl ⟨rfl, he⟩))
    refine (h.unopened fun id hid => ?_).trans ?_
    · exact hx id (hr.mpr (.inr ⟨Nat.ne_of_lt (h.lt hid).1, hid⟩))
    · refine if_congr ?_ rfl rfl
      change r < b.requests ↔ r < b.requests + 1
      omega

theorem refused (h : b.Agrees s) : b.refused.Agrees s := by
  have hu {r : Nat} (hr : r ≠ b.requests) : b.refused.answers r = b.answers r := update_of_ne hr ..
  constructor
  case known => exact h.known
  case lt => exact fun hr => ⟨(h.lt hr).1, lt_succ_of_lt (h.lt hr).2⟩
  case answers => exact fun hr => (hu (Nat.ne_of_lt (h.lt hr).2)).trans (h.answers hr)
  case injective => exact h.injective
  case unopened =>
    intro r hx
    by_cases hr : r = b.requests
    case pos =>
      subst hr
      refine (update_self ..).trans ?_
      rw [h.answers_requests]
      exact (if_pos (lt_succ_self _)).symm
    case neg =>
      rw [hu hr, h.unopened hx]
      refine if_congr ?_ rfl rfl
      change r < b.requests ↔ r < b.requests + 1
      omega

theorem serviced {id : Nat} {o : Option (Entry tier)} {eff : List Effect} (h : b.Agrees s)
    (hn : s.nextId ≤ s'.nextId) (he : entryOf s id = some e) (ho : entryOf s' id = o) (hk : ∀ k ≠ id, entryOf s' k = entryOf s k)
    (ha : answersOf (some e) + eff.countP Effect.isAnswer = answersOf o) : (b.serviced id eff).Agrees s' := by
  obtain ⟨r, hr⟩ := isSome_iff_exists.mp (h.known id (he ▸ rfl))
  rw [Ledger.serviced, hr]
  constructor
  case known =>
    intro k hs
    by_cases hkid : k = id
    case pos => exact hkid ▸ isSome_iff_exists.mpr ⟨r, hr⟩
    case neg => exact h.known k (hk k hkid ▸ hs)
  case lt => exact fun hx => ⟨lt_of_lt_of_le (h.lt hx).1 hn, (h.lt hx).2⟩
  case answers =>
    intro k r' hx
    by_cases hkid : k = id
    case pos =>
      subst hkid
      cases hr.symm.trans hx
      rw [ho, ← ha, ← he, ← h.answers hr]
      exact update_self ..
    case neg =>
      have hne : r' ≠ r := fun he => hkid (h.injective hx (he ▸ hr))
      rw [hk k hkid]
      exact (update_of_ne hne ..).trans (h.answers hx)
  case injective => exact h.injective
  case unopened =>
    intro r' hx
    have hne : r' ≠ r := fun he => hx id (he ▸ hr)
    exact (update_of_ne hne ..).trans (h.unopened hx)

end Agrees

variable {s s' : State tier} {l : Label} {b : Ledger}

theorem serviced_nil (b : Ledger) (id : Nat) : b.serviced id [] = b := by
  unfold serviced
  split
  case h_1 r _ => rw [countP_nil, add_zero, update_eq_self]
  case h_2 => rfl

theorem observe_visits (hv : s.Visits l id ms e) :
    b.observe s l s' = b.serviced id (e.service id ms s.dataIn).2.2 := by
  have hr := hv.round?
  obtain ⟨rfl, _⟩ := hv
  simp only [observe, hr]

theorem observe_moves (t : Tables s.stack) (hv : ∀ id ms e, ¬ s.Visits l id ms e)
    (hc : ∀ dst resp connects, l ≠ .cmd (.openTcp dst resp) connects) : b.observe s l s' = b := by
  cases l
  case cmd c connects =>
    cases c
    case openTcp dst resp => exact absurd rfl (hc dst resp connects)
    all_goals rfl
  case visitTcp ms =>
    obtain hr | ⟨id, hr⟩ := State.round?_of_not_visits t (hv · ms)
    · simp only [observe, hr]
    · simp only [observe, hr, serviced_nil]
  all_goals rfl

end Ledger

namespace State

theorem step_agrees {s s' : State tier} {b : Ledger} (hi : s.Inv View.Waits) (ha : b.Agrees s.stack)
    (h : s.step l = some s') : (b.observe s l s').Agrees s'.stack := by
  by_cases hc : ∃ dst resp connects, l = .cmd (.openTcp dst resp) connects
  case pos =>
    obtain ⟨dst, resp, connects, rfl⟩ := hc
    obtain ⟨q, hc⟩ := command_stack (step_cmd h)
    cases connects
    case true =>
      obtain ⟨hs, _⟩ := Prod.mk.inj (Option.some.inj hc)
      rw [← hs]
      obtain ⟨e, he, hf⟩ := entryOf_addTcp_nextId s.stack dst resp
      exact ha.opened rfl (fun id hid => entryOf_addTcp id hi.tables dst resp hid) he hf.established
    case false =>
      obtain ⟨hs, _⟩ := Prod.mk.inj (Option.some.inj hc)
      rw [← hs]
      exact ha.refused.keep (le_refl _) fun _ => ⟨rfl, rfl⟩
  case neg =>
    have hn := step_nextId_le h
    obtain ⟨id, ms, e, hv, hs, hk⟩ | ⟨id, data, hd, hs, hk⟩ | ⟨hv, _, hm⟩ := step_cases hi.tables hi.unseen h
    case inl =>
      rw [Ledger.observe_visits hv]
      refine ha.serviced hn hv.2.2 (congrArg View.entry hs) (fun k hk' => congrArg View.entry (hk k hk')) ?_
      exact ((hi.conn id e hv.2.2).service id ms s.dataIn).2
    case inr.inl =>
      have he (k : Nat) : entryOf s'.stack k = entryOf s.stack k := by
        by_cases hkid : k = id
        case pos => exact hkid ▸ congrArg View.entry hs
        case neg => exact congrArg View.entry (hk k hkid)
      rw [Ledger.observe_moves hi.tables (fun _ _ _ hv => by cases hv.1.symm.trans hd.1)
        fun dst resp connects he => hc ⟨dst, resp, connects, he⟩]
      exact ha.keep hn fun k => ⟨by rw [he], by rw [he]⟩
    case inr.inr =>
      rw [Ledger.observe_moves hi.tables hv fun dst resp connects he => hc ⟨dst, resp, connects, he⟩]
      refine ha.keep hn fun id => (hm id).answers.resolve_right ?_
      rintro ⟨hnone, hsome⟩
      change entryOf s.stack id = none at hnone
      change (entryOf s'.stack id).isSome at hsome
      rw [(step_tables hi.tables h).entryOf_isSome] at hsome
      have hsome := step_tcp_isSome (fun dst resp he => hc ⟨dst, resp, true, he⟩) h hsome
      rw [← hi.tables.entryOf_isSome, hnone] at hsome
      cases hsome

theorem step_waits {s s' : State tier} (hi : s.Inv View.Waits) (h : s.step l = some s') : s'.Inv View.Waits :=
  Inv.step (fun _ _ => View.Move.waits) (fun _ _ _ id ms q hi => ((hi _ rfl).service id ms q).1)
    (fun _ _ _ hi => hi) _ _ _ hi h

theorem answered_of_agrees {s : State tier} {b : Ledger} (t : Tables s.stack) (ha : b.Agrees s.stack) : Answered (s, b) := by
  have hn {id : Nat} (h : s.stack.tcpConns id = none) : answersOf (entryOf s.stack id) = 1 := by
    rw [entryOf_none h]
    rfl
  constructor
  case tables => exact t
  case services => exact t.visitTcp_isSome
  case servicesUdp => exact t.visitUdp_isSome
  case handles => exact t.tryHandleData_isSome
  case injective => exact ha.injective
  case refused => exact fun hr hx => (ha.unopened hx).trans (if_pos hr)
  case removed => exact fun hr h => (ha.answers hr).trans (hn h)
  case request =>
    intro id st hst
    obtain ⟨socket, he⟩ := t.entryOf hst
    obtain ⟨r, hr⟩ := isSome_iff_exists.mp (ha.known id (he ▸ rfl))
    exact ⟨r, hr, (ha.lt hr).2⟩
  case established =>
    intro id st r hst hr hes
    obtain ⟨socket, he⟩ := t.entryOf hst
    rw [ha.answers hr, he]
    exact if_pos hes
  case once =>
    intro r
    by_cases hx : ∃ id, b.request id = some r
    case pos =>
      obtain ⟨id, hr⟩ := hx
      exact ha.answers hr ▸ answersOf_le _
    case neg =>
      refine le_trans (le_of_eq (ha.unopened fun id hr => hx ⟨id, hr⟩)) ?_
      split <;> omega

-- In every run the tables are consistent and no lookup fails, each request is answered at most once, and it
-- is answered before its connection is used or forgotten.
theorem always_answered (iface : Interface) (ls : List Label) :
    Lts.Always (Lts.observed step Ledger.observe) Answered ((init iface : State tier), {}) ls := by
  refine Lts.always_of_invariant (I := fun p => p.1.Inv View.Waits ∧ p.2.Agrees p.1.stack) ?_ ?_
    ⟨init_inv (fun e he => by cases he) iface, Ledger.init_agrees iface⟩ ls
  · rintro ⟨s, b⟩ l ⟨s', b'⟩ ⟨hi, ha⟩ h
    obtain ⟨hs, hb⟩ := Lts.observed_eq_some.mp h
    exact ⟨step_waits hi hs, hb ▸ step_agrees hi ha hs⟩
  · exact fun p hp => answered_of_agrees hp.1.tables hp.2

end State

end Engine.Netstack
