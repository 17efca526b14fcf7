import SoildTunnel.Engine.WireGuard

namespace Engine.WireGuard

open Option

-- What the library asks of its caller. A packet for the network is sent, and then it is called with an empty
-- datagram, until there is no other packet.
inductive Owed
  | nothing
  | send (pkt : Bytes)
  | call
deriving DecidableEq

-- A caller that goes on with anything else has broken the contract.
def Owed.observe (id : ClientId) : Owed → Event → Option Owed
  | .nothing, .called _ (.writeToNetwork pkt) => some (.send (injectClientId pkt id))
  | .nothing, _ => some .nothing
  | .send pkt, .sent pkt' => if pkt' = pkt then some .call else none
  | .call, .called [] (.writeToNetwork pkt) => some (.send (injectClientId pkt id))
  | .call, .called [] _ => some .nothing
  | _, _ => none

def Event.result : Event → Option TunnResult
  | .called _ result => some result
  | _ => none

section Past

variable (id : ClientId)

def owed (past : List Event) : Option Owed :=
  Lts.exec (Owed.observe id) .nothing past.reverse

def Answered (past : List Event) : Prop :=
  ∃ pkt, past.findSome? Event.result = some (.writeToNetwork pkt)

variable {id} {past : List Event} {e : Event}

theorem owed_cons : owed id (e :: past) = (owed id past).bind (Owed.observe id · e) := by
  rw [owed, List.reverse_cons, Lts.exec_append, ← owed]
  congr 1
  funext o
  simp

theorem answered_cons (he : e.result = none) : Answered (e :: past) ↔ Answered past := by
  rw [Answered, List.findSome?_cons_of_isNone (by rw [he]; rfl), ← Answered]

theorem answered_called {input : Bytes} {result : TunnResult} :
    Answered (.called input result :: past) ↔ ∃ pkt, result = .writeToNetwork pkt := by
  rw [Answered, List.findSome?_cons_of_isSome rfl]
  simp [Event.result]

end Past

-- What is owed shows in what the task waits for. An empty packet is not sent.
def Fits (phase : Phase) (past : List Event) : Owed → Prop
  | .nothing => ¬ Answered past ∧ ∀ pkt, phase ≠ .send pkt
  | .send pkt => Answered past ∧ (phase = .send pkt ∨ phase = .recv)
  | .call => Answered past ∧ phase = .recv

theorem Fits.answered {phase : Phase} {past : List Event} {o : Owed} (hf : Fits phase past o) (hn : o ≠ .nothing) :
    Answered past := by
  cases o
  case nothing => exact absurd rfl hn
  case send => exact hf.1
  case call => exact hf.1

theorem fits_called {id : ClientId} {past : List Event} (datagram input : Bytes) (result : TunnResult)
    (ho : owed id past = some .nothing) :
    ∃ o, owed id (.called input result :: .received datagram :: past) = some o ∧
      Fits (.after id result) (.called input result :: .received datagram :: past) o := by
  rw [owed_cons, owed_cons, ho]
  cases result
  case writeToNetwork pkt =>
    refine ⟨.send (injectClientId pkt id), rfl, answered_called.mpr ⟨pkt, rfl⟩, ?_⟩
    rw [Phase.after]
    split
    case isTrue => exact .inl rfl
    case isFalse => exact .inr rfl
  all_goals
    refine ⟨.nothing, rfl, fun h => ?_, fun pkt h => ?_⟩
    · obtain ⟨pkt, hp⟩ := answered_called.mp h
      cases hp
    · cases h

namespace State

variable {τ : Type} {T : Tunn τ} {id : ClientId}

def Keeps (id : ClientId) (s : State τ) : Prop :=
  (owed id s.past).isSome

-- The task turns to the socket again only if the last call gave no packet for the network.
def Turns (s : State τ) : Label τ → Prop
  | .recv .. | .fail _ => ¬ Answered s.past
  | _ => True

def Inv (id : ClientId) (s : State τ) : Prop :=
  ∀ o, owed id s.past = some o → Fits s.phase s.past o

variable {s s' : State τ} {o : Owed}

theorem inv_of_owed (ho : owed id s.past = some o) (hf : Fits s.phase s.past o) : Inv id s := by
  intro o' ho'
  cases ho.symm.trans ho'
  exact hf

theorem keeps_of_owed (ho : owed id s.past = some o) : s.Keeps id := by
  rw [Keeps, ho]
  rfl

theorem past_fail (kind : ErrorKind) : (s.fail kind).past = .failed kind :: s.past := by
  unfold fail
  split <;> rfl

theorem phase_fail (kind : ErrorKind) (pkt : Bytes) : (s.fail kind).phase ≠ .send pkt := by
  unfold fail
  dsimp only
  split
  case isTrue =>
    dsimp only
    split <;> exact Phase.noConfusion
  case isFalse => exact Phase.noConfusion

theorem keeps_and_inv (ho : owed id s.past = some o) (hf : Fits s.phase s.past o) :
    (s.Keeps id ↔ True) ∧ (s.Keeps id → Inv id s) :=
  ⟨iff_true_intro (keeps_of_owed ho), fun _ => inv_of_owed ho hf⟩

theorem not_keeps {e : Event} (ho : owed id s.past = some o) (hf : Fits s.phase s.past o) (hn : o ≠ .nothing)
    (he : ∀ o, o ≠ .nothing → Owed.observe id o e = none) (hk : s'.Keeps id → (owed id (e :: s.past)).isSome) :
    (s'.Keeps id ↔ ¬ Answered s.past) ∧ (s'.Keeps id → Inv id s') := by
  have hk' : ¬ s'.Keeps id := by
    intro h
    have hs := hk h
    rw [owed_cons, ho, bind_some, he o hn] at hs
    cases hs
  exact ⟨iff_of_false hk' (not_not_intro (hf.answered hn)), fun h => absurd h hk'⟩

theorem observe_received (datagram : Bytes) (hn : o ≠ .nothing) : o.observe id (.received datagram) = none := by
  cases o
  case nothing => exact absurd rfl hn
  case send => rfl
  case call => rfl

theorem observe_failed (kind : ErrorKind) (hn : o ≠ .nothing) : o.observe id (.failed kind) = none := by
  cases o
  case nothing => exact absurd rfl hn
  case send => rfl
  case call => rfl

theorem step_keeps {l : Label τ} (hi : Inv id s) (hk : s.Keeps id) (h : s.step T id l = some s') :
    (s'.Keeps id ↔ s.Turns l) ∧ (s'.Keeps id → Inv id s') := by
  obtain ⟨o, ho⟩ := isSome_iff_exists.mp hk
  have hf := hi o ho
  cases l
  case recv datagram now =>
    obtain ⟨hp, he⟩ := ite_none_right_eq_some.mp h
    cases he
    by_cases hn : o = .nothing
    case pos =>
      subst hn
      obtain ⟨o, ho', hf'⟩ := fits_called datagram (stripClientId datagram)
        (T.decapsulate s.tunn (stripClientId datagram)).2 ho
      obtain ⟨hk', hi'⟩ := keeps_and_inv (s := s.handle T id datagram now) ho' hf'
      exact ⟨hk'.trans (iff_true_intro hf.1).symm, hi'⟩
    case neg =>
      refine not_keeps ho hf hn (fun o => observe_received datagram) fun hk => ?_
      obtain ⟨o', ho'⟩ := isSome_iff_exists.mp hk
      change owed id (_ :: _ :: s.past) = some o' at ho'
      rw [owed_cons] at ho'
      obtain ⟨o'', ho'', _⟩ := bind_eq_some_iff.mp ho'
      exact isSome_of_eq_some ho''
  case fail kind =>
    obtain ⟨hp, he⟩ := ite_none_right_eq_some.mp h
    cases he
    by_cases hn : o = .nothing
    case pos =>
      subst hn
      have ho' : owed id (s.fail kind).past = some .nothing := by
        rw [past_fail, owed_cons, ho]
        rfl
      have hf' : Fits (s.fail kind).phase (s.fail kind).past .nothing := by
        rw [past_fail]
        exact ⟨fun h => hf.1 ((answered_cons rfl).mp h), phase_fail kind⟩
      obtain ⟨hk', hi'⟩ := keeps_and_inv ho' hf'
      exact ⟨hk'.trans (iff_true_intro hf.1).symm, hi'⟩
    case neg =>
      refine not_keeps ho hf hn (fun o => observe_failed kind) fun hk => ?_
      rwa [Keeps, past_fail] at hk
  case sent =>
    cases hp : s.phase
    case send pkt =>
      simp only [step, hp] at h
      cases h
      cases o
      case nothing => exact absurd hp (hf.2 pkt)
      case send pkt' =>
        rw [hp] at hf
        rcases hf with ⟨ha, he | he⟩
        · cases he
          refine keeps_and_inv (o := .call) ?_ ⟨(answered_cons rfl).mpr ha, rfl⟩
          rw [owed_cons, ho, bind_some, Owed.observe, if_pos rfl]
        · cases he
      case call => cases hp.symm.trans hf.2
    all_goals
      simp only [step, hp] at h
      cases h
  case delivered =>
    cases hp : s.phase
    case deliver pkt =>
      simp only [step, hp] at h
      cases h
      cases o
      case nothing =>
        refine keeps_and_inv (o := .nothing) ?_ ⟨fun h => hf.1 ((answered_cons rfl).mp h), fun pkt h => by cases h⟩
        rw [owed_cons, ho]
        rfl
      case send pkt' =>
        rw [hp] at hf
        rcases hf with ⟨_, he | he⟩ <;> cases he
      case call => cases hp.symm.trans hf.2
    all_goals
      simp only [step, hp] at h
      cases h
  case slept =>
    obtain ⟨hp, he⟩ := ite_none_right_eq_some.mp h
    cases he
    cases o
    case nothing => exact keeps_and_inv (o := .nothing) ho ⟨hf.1, fun pkt h => by cases h⟩
    case send pkt' =>
      rw [hp] at hf
      rcases hf with ⟨_, he | he⟩ <;> cases he
    case call => cases hp.symm.trans hf.2
  case other tunn =>
    cases h
    exact keeps_and_inv ho hf

-- The receive task keeps the contract as long as no datagram is answered before it turns to the socket again.
theorem always_keeps_iff (T : Tunn τ) (id : ClientId) (tunn : τ) (now : Nat) (ls : List (Label τ)) :
    Lts.Always (step T id) (Keeps id) (initial tunn now) ls ↔ Lts.Admits (step T id) Turns (initial tunn now) ls := by
  have hi : Inv id (initial tunn now) := by
    refine inv_of_owed (o := .nothing) rfl ⟨fun h => ?_, fun pkt h => ?_⟩
    · obtain ⟨pkt, hp⟩ := h
      cases hp
    · cases h
  exact Lts.always_iff_admits (I := Inv id) (fun s l s' hi hk hs hk' => (step_keeps hi hk hs).2 hk')
    (fun s l s' hi hk hs => (step_keeps hi hk hs).1) hi rfl

instance (id : ClientId) : DecidablePred (Keeps (τ := τ) id) :=
  fun s => inferInstanceAs (Decidable ((owed id s.past).isSome = true))

end State

def queueing : Tunn (List Bytes) where
  decapsulate queue datagram :=
    if datagram = [] then
      match queue with
      | [] => ([], .done)
      | pkt :: queue => (queue, .writeToNetwork pkt)
    else (queue, .writeToNetwork [4, 0, 0, 0])

def queued : Bytes := [4, 0, 0, 0, 7]

def handshake : List (Label (List Bytes)) :=
  [.recv [2, 0, 0, 0] 1, .sent, .recv [4, 0, 0, 0] 2]

-- The packet is still in the queue, from where an empty datagram would have fetched it.
theorem not_always_keeps :
    ¬ Lts.Always (State.step queueing (1, 2, 3)) (State.Keeps (1, 2, 3)) (.initial [queued] 0) handshake ∧
      (Lts.exec (State.step queueing (1, 2, 3)) (.initial [queued] 0) handshake).map State.tunn = some [queued] ∧
      queueing.decapsulate [queued] [] = ([], .writeToNetwork queued) := by
  refine ⟨Lts.not_always ?_, ?_, ?_⟩
  · decide
  · decide
  · decide

end Engine.WireGuard
