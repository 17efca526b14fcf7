import SoildTunnel.Engine.Outbound.Theorems.Tcp

-- What an application gets of the bytes that are read from its stream.
namespace Engine.Outbound

open Rust Lts List Option

namespace TcpPipe

variable {p q : TcpPipe} {quic : Quic} {recv : List Received} {read delivered : Bytes}

def reads (p : TcpPipe) (recv : List Received) : Bytes :=
  if p.slot.remoteDone ∨ ¬ p.slot.toApp then []
  else match p.toApp.tryReserve, recv with
    | .permit, .data read fin :: recv =>
      let p := if read = [] then p else { p with toApp := (p.toApp.trySend read).getD p.toApp }
      read ++ if fin then [] else p.reads recv
    | _, _ => []

def taken (p : TcpPipe) (quic : Quic) : Bytes :=
  if p.removed then [] else (p.pumpOutbound quic).reads quic.recv

-- The channel holds what was read and not delivered yet, as long as somebody is there to get it.
structure Delivers (read delivered : Bytes) (p : TcpPipe) : Prop where
  isPrefix : delivered ++ p.toApp.queue.flatten <+: read
  waits : p.toApp.closed = false → delivered ++ p.toApp.queue.flatten = read

theorem queue_read (hp : p.toApp.tryReserve = .permit) (read : Bytes) :
    (if read = [] then p else { p with toApp := (p.toApp.trySend read).getD p.toApp }).toApp.queue.flatten =
      p.toApp.queue.flatten ++ read := by
  split
  case isTrue h => simp [h]
  case isFalse =>
    cases hs : p.toApp.trySend read
    case some c => simp [(Mpsc.trySend_eq_some hs).2.2.1]
    case none =>
      unfold Mpsc.tryReserve at hp
      unfold Mpsc.trySend at hs
      grind

theorem queue_pumpInbound (p : TcpPipe) (recv : List Received) :
    (p.pumpInbound recv).toApp.queue.flatten = p.toApp.queue.flatten ++ p.reads recv := by
  fun_induction pumpInbound p recv
  case case1 hd => rw [reads.eq_def, if_pos hd, append_nil]
  case case7 p hd hp read recv q =>
    rw [reads.eq_def, if_neg hd, hp]
    exact (queue_read hp read).trans (by simp)
  case case8 p hd hp read fin recv q hf ih =>
    rw [reads.eq_def, if_neg hd, hp, ih, queue_read hp read]
    simp [hf, q]
  all_goals
    rw [reads.eq_def, if_neg (by assumption)]
    simp_all [endRemote]

theorem reads_of_closed (h : p.toApp.closed = true) : p.reads recv = [] := by
  rw [reads.eq_def, Mpsc.tryReserve, if_pos h]
  split <;> rfl

theorem Delivers.turn (h : p.Delivers read delivered) (quic : Quic) :
    (if p.removed then p else p.turn quic).Delivers (read ++ p.taken quic) delivered := by
  unfold taken
  split
  case isTrue => simpa using h
  case isFalse =>
    have hk : (p.pumpOutbound quic).toApp = p.toApp := (offered p.collect quic).kept.toApp
    have hi := (inward_pumpInbound (p.pumpOutbound quic) quic.recv).closed
    have hq := queue_pumpInbound (p.pumpOutbound quic) quic.recv
    have hw : p.toApp.closed = false →
        delivered ++ ((p.pumpOutbound quic).pumpInbound quic.recv).toApp.queue.flatten =
          read ++ (p.pumpOutbound quic).reads quic.recv := by
      intro ho
      rw [hq, hk, ← append_assoc, h.waits ho]
    refine ⟨?_, fun ho => hw (by rw [← hk, ← hi]; exact ho)⟩
    cases hc : p.toApp.closed
    case false => exact (hw hc) ▸ prefix_rfl
    case true =>
      change delivered ++ ((p.pumpOutbound quic).pumpInbound quic.recv).toApp.queue.flatten <+: _
      rw [hq, hk, reads_of_closed (hk ▸ hc), append_nil, append_nil]
      exact h.isPrefix

end TcpPipe

open TcpPipe

structure TcpTrace where
  session : TcpSession := {}
  read : Nat → Bytes := fun _ => []
  delivered : Nat → Bytes := fun _ => []

namespace TcpTrace

variable {streamLimit : Nat} {t t' : TcpTrace} {l : TcpLabel}

def pumped (streamLimit : Nat) (s : TcpSession) : Option OpenTcp → TcpSession
  | some command => if streamLimit ≤ s.slots.length then {} else s.openTcp command
  | none => s

def step (streamLimit : Nat) (t : TcpTrace) (l : TcpLabel) : Option TcpTrace :=
  (t.session.step streamLimit l).map fun session =>
    match l with
    | .turn command quic =>
      let read i := (pumped streamLimit t.session command).pipes[i]?.elim [] fun p => p.taken (quic p.stream)
      { t with session, read := fun i => t.read i ++ read i }
    | .recv i =>
      let chunk := (t.session.pipes[i]?.bind (·.toApp.recv)).elim [] Prod.fst
      { t with session, delivered := Function.update t.delivered i (t.delivered i ++ chunk) }
    | _ => { t with session }

structure Inv (t : TcpTrace) : Prop where
  delivers : ∀ i (p : TcpPipe), t.session.pipes[i]? = some p → p.Delivers (t.read i) (t.delivered i)
  unused : ∀ i, t.session.pipes[i]? = none → t.read i = [] ∧ t.delivered i = []

theorem Inv.pump (h : Inv t) (quic : Nat → Quic) : Inv { t with
      session := t.session.pump quic
      read := fun i => t.read i ++ t.session.pipes[i]?.elim [] fun p => p.taken (quic p.stream) } where
  delivers i q hq := by
    obtain ⟨p, hp, rfl⟩ := map_eq_some_iff.mp ((List.getElem?_map ..).symm.trans hq)
    dsimp only
    rw [hp]
    exact (h.delivers i p hp).turn _
  unused i hi := by
    have hp := map_eq_none_iff.mp ((List.getElem?_map ..).symm.trans hi)
    simpa [hp] using h.unused i hp

-- Nothing has been read yet for a pipe that is opened.
theorem Inv.openTcp (h : Inv t) (command : OpenTcp) : Inv { t with session := t.session.openTcp command } := by
  obtain he | ⟨head, -, he⟩ := TcpSession.openTcp_cases t.session command
  case inl => rw [he]; exact h
  case inr =>
    rw [he]
    constructor
    case delivers =>
      intro i p hp
      rw [List.getElem?_append] at hp
      split at hp
      case isTrue => exact h.delivers i p hp
      case isFalse hl =>
        obtain ⟨hr, hd⟩ := h.unused i (getElem?_eq_none (not_lt.mp hl))
        rw [mem_singleton.mp (mem_of_getElem? hp)]
        exact ⟨by simp [hd, TcpSession.fresh], fun _ => by simp [hr, hd, TcpSession.fresh]⟩
    case unused =>
      intro i hi
      rw [getElem?_eq_none_iff, length_append] at hi
      exact h.unused i (getElem?_eq_none (by omega))

theorem Inv.set (h : Inv t) {i : Nat} {p q : TcpPipe} {delivered : Bytes} (hp : t.session.pipes[i]? = some p)
    (hq : q.Delivers (t.read i) delivered) :
    Inv { t with
      session := { t.session with pipes := t.session.pipes.set i q }
      delivered := Function.update t.delivered i delivered } := by
  have hi := (List.getElem?_eq_some_iff.mp hp).1
  constructor
  case delivers =>
    intro j r hr
    by_cases hj : j = i
    case pos =>
      subst hj
      rw [List.getElem?_set_self hi] at hr
      cases hr
      simpa using hq
    case neg =>
      rw [List.getElem?_set_ne (Ne.symm hj)] at hr
      simpa [hj] using h.delivers j r hr
  case unused =>
    intro j hj
    have hn : t.session.pipes[j]? = none := by simpa using hj
    have hne : j ≠ i := fun he => by rw [he, hp] at hn; cases hn
    simpa [hne] using h.unused j hn

theorem Inv.step (h : Inv t) (ht : t.step streamLimit l = some t') : Inv t' := by
  obtain ⟨session, hs, rfl⟩ := map_eq_some_iff.mp ht
  have hset {i : Nat} {p q : TcpPipe} (hp : t.session.pipes[i]? = some p) (hq : q.Delivers (t.read i) (t.delivered i)) :
      Inv { t with session := { t.session with pipes := t.session.pipes.set i q } } := by
    simpa using h.set hp hq
  cases l
  case turn command quic =>
    cases hs
    cases command
    case none => exact h.pump quic
    case some command =>
      simp only [TcpSession.turn, pumped]
      split
      case isTrue => simpa using h
      case isFalse => exact (h.openTcp command).pump quic
  case recv i =>
    obtain ⟨p, q, hp, -, hq, rfl⟩ := TcpSession.atPipe_eq_some hs
    obtain ⟨⟨chunk, toApp⟩, hr, rfl⟩ := map_eq_some_iff.mp hq
    obtain ⟨hc, hcl⟩ := Mpsc.recv_eq_some hr
    have hd := h.delivers i p hp
    simp only [hp, hr, bind_some, elim_some]
    refine h.set hp ⟨?_, fun ho => ?_⟩
    case refine_1 => simpa [hc] using hd.isPrefix
    case refine_2 => simpa [hc] using hd.waits (hcl ▸ ho)
  all_goals
    obtain ⟨_, _, hl, -⟩ | ⟨i, p, q, hp, -, ha, rfl⟩ := TcpSession.step_cases hs
    case inl => cases hl
    case inr =>
      have hd := h.delivers i p hp
      cases ha
      first
      | exact hset hp ⟨hd.isPrefix, hd.waits⟩
      | exact hset hp ⟨by simpa [Mpsc.dropReceiver] using (prefix_append ..).trans hd.isPrefix, fun ho => by cases ho⟩

end TcpTrace

-- In every run, whatever the channels have room for.
theorem always_delivers (streamLimit : Nat) (run : List TcpLabel) : Always (TcpTrace.step streamLimit)
      (fun t => ∀ i (p : TcpPipe), t.session.pipes[i]? = some p → p.Delivers (t.read i) (t.delivered i)) {} run := by
  refine always_iff.mpr fun past _ t _ hx => ?_
  have h₀ : TcpTrace.Inv {} := ⟨fun _ _ => nofun, fun _ _ => ⟨rfl, rfl⟩⟩
  exact (exec_invariant (fun _ _ _ hi hs => TcpTrace.Inv.step hi hs) h₀ hx).delivers

end Engine.Outbound
