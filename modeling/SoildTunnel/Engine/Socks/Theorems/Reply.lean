import SoildTunnel.Engine.Socks.Reply

-- When the client gets more than one reply.
namespace Engine.Socks

open Rust List

def Message.isReply : Message → Bool
  | .reply _ => true
  | .remote _ => false

@[simp]
theorem isReply_reply (code : UInt8) : (Message.reply code).isReply = true :=
  rfl

@[simp]
theorem isReply_remote (bytes : Bytes) : (Message.remote bytes).isReply = false :=
  rfl

def Course.remoteSide (c : Course) (port : UInt16) (action : Action) : List Bytes :=
  match action with
  | .proxy => ((openConnection c port).map (received c)).getD []
  | _ => c.chunks

-- At most one reply, and after a success what the remote side sends from its beginning on.
structure OneReply (remoteSide : List Bytes) (ms : List Message) : Prop where
  length_le : (ms.filter Message.isReply).length ≤ 1
  remote_of_ok : ∀ before after, ms = before ++ .reply REP_OK :: after → ∃ l, l <+: remoteSide ∧ after = l.map .remote

section Writes

variable {remoteSide : List Bytes} {ms ms' : List Message}

theorem prefix_writeEach (accepts : Nat → Bool) (n : Nat) (ms : List Message) : writeEach accepts n ms <+: ms := by
  induction ms generalizing n
  case nil => exact nil_prefix
  case cons m ms hi =>
    rw [writeEach, prefix_cons_inj]
    split
    case isTrue => exact hi (n + 1)
    case isFalse => exact nil_prefix

theorem prefix_map_remote {l : List Bytes} (h : ms <+: l.map .remote) : ∃ l', l' <+: l ∧ ms = l'.map .remote := by
  obtain ⟨rest, h⟩ := h
  obtain ⟨l₁, l₂, rfl, h₁, _⟩ := map_eq_append_iff.mp h.symm
  exact ⟨l₁, prefix_append .., h₁.symm⟩

theorem OneReply.mono (h : OneReply remoteSide ms) (hp : ms' <+: ms) : OneReply remoteSide ms' where
  length_le := ((hp.filter _).length_le).trans h.length_le
  remote_of_ok before after he := by
    obtain ⟨rest, rfl⟩ := hp
    have ⟨l, hl, ha⟩ := h.remote_of_ok before (after ++ rest) (by rw [he]; simp)
    have ⟨l', hl', ha'⟩ := prefix_map_remote ⟨rest, ha⟩
    exact ⟨l', hl'.trans hl, ha'⟩

theorem filter_map_remote (l : List Bytes) : (l.map Message.remote).filter Message.isReply = [] := by
  simp [filter_eq_nil_iff]

theorem oneReply_ok_append {l : List Bytes} (h : l <+: remoteSide) : OneReply remoteSide (.reply REP_OK :: l.map .remote) where
  length_le := by rw [filter_cons_of_pos (isReply_reply _), filter_map_remote]; rfl
  remote_of_ok before after he := by
    cases before
    case nil =>
      rw [nil_append] at he
      exact ⟨l, h, (List.cons.inj he).2.symm⟩
    case cons m before =>
      have hm : .reply REP_OK ∈ l.map Message.remote := by
        rw [(List.cons.inj he).2]
        simp
      simp at hm

theorem oneReply_singleton (code : UInt8) : OneReply remoteSide [.reply code] where
  length_le := Nat.le_refl 1
  remote_of_ok before after he := by
    cases before
    case nil => exact ⟨[], nil_prefix, (List.cons.inj he).2.symm⟩
    case cons m before => simp at he

theorem oneReply_nil : OneReply remoteSide [] :=
  (oneReply_singleton REP_OK).mono nil_prefix

theorem not_oneReply_pair {code code' : UInt8} {rest : List Message} :
    ¬ OneReply remoteSide (.reply code :: .reply code' :: rest) := by
  intro h
  have := h.length_le
  rw [filter_cons_of_pos (isReply_reply _), filter_cons_of_pos (isReply_reply _), length_cons,
    length_cons] at this
  omega

end Writes

section Course

variable {c : Course} {head : Bytes} {port : UInt16}

theorem oneReply_unlessReplied (replied : Bool) (code : UInt8) {remoteSide : List Bytes} :
    OneReply remoteSide (unlessReplied replied code) := by
  unfold unlessReplied
  split
  case isTrue => exact oneReply_nil
  case isFalse => exact oneReply_singleton code

theorem oneReply_handleDirect : OneReply c.chunks (handleDirect c head false) := by
  unfold handleDirect
  split
  case isTrue => exact oneReply_unlessReplied false REP_GENERAL
  case isFalse =>
    split
    case isTrue => exact oneReply_ok_append prefix_rfl
    case isFalse => exact oneReply_nil

theorem handleDirect_true : ∃ l, l <+: c.chunks ∧ handleDirect c head true = l.map .remote := by
  unfold handleDirect
  split
  case isTrue => exact ⟨[], nil_prefix, rfl⟩
  case isFalse =>
    split
    case isTrue => exact ⟨c.chunks, prefix_rfl, rfl⟩
    case isFalse => exact ⟨[], nil_prefix, rfl⟩

theorem relay_eq (received : List Bytes) : ∃ l, l <+: received ∧ relay c head received = l.map .remote := by
  unfold relay
  split
  case isTrue => exact ⟨received, prefix_rfl, rfl⟩
  case isFalse => exact ⟨[], nil_prefix, rfl⟩

theorem oneReply_handleProxy : OneReply (c.remoteSide port .proxy) (handleProxy c head false port) := by
  unfold handleProxy Course.remoteSide
  cases openConnection c port
  case none => exact oneReply_singleton REP_GENERAL
  case some leftover =>
    have ⟨l, hl, he⟩ := @relay_eq c head (received c leftover)
    dsimp only
    rw [he]
    exact oneReply_ok_append hl

theorem handleProxy_true (h : openConnection c port ≠ none) :
    ∃ l, l <+: c.remoteSide port .proxy ∧ handleProxy c head true port = l.map .remote := by
  unfold handleProxy Course.remoteSide
  cases ho : openConnection c port
  case none => exact absurd ho h
  case some leftover => exact relay_eq (received c leftover)

end Course

section Connect

variable {cm : CaseMap} {set : RuleSet} {sniffEnabled : Bool} {target : Target} {port : UInt16} {c : Course} {head : Bytes}

theorem oneReply_handleRouted : OneReply (c.remoteSide port (connectAction cm set sniffEnabled target port head))
      (handleRouted cm set sniffEnabled target port c head false) := by
  unfold handleRouted
  cases connectAction cm set sniffEnabled target port head
  case block => exact oneReply_unlessReplied false REP_NOT_ALLOWED
  case direct => exact oneReply_handleDirect
  case proxy => exact oneReply_handleProxy

theorem handleRouted_true
    (h : ¬ (connectAction cm set sniffEnabled target port head = .proxy ∧ openConnection c port = none)) :
    ∃ l, l <+: c.remoteSide port (connectAction cm set sniffEnabled target port head) ∧
      handleRouted cm set sniffEnabled target port c head true = l.map .remote := by
  unfold handleRouted
  cases ha : connectAction cm set sniffEnabled target port head
  case block => exact ⟨[], nil_prefix, rfl⟩
  case direct => exact handleDirect_true
  case proxy => exact handleProxy_true fun ho => h ⟨ha, ho⟩

def action (cm : CaseMap) (set : RuleSet) (sniffEnabled : Bool) (target : Target) (port : UInt16) (c : Course) : Action :=
  connectAction cm set sniffEnabled target port
    (if sniffs set sniffEnabled target then (readSniffHead c.read).getD [] else [])

-- The connection fails after the client was told of its success.
structure FailsLate (cm : CaseMap) (set : RuleSet) (sniffEnabled : Bool) (target : Target) (port : UInt16) (c : Course) :
    Prop where
  sniffs : sniffs set sniffEnabled target
  accepted : c.accepts 0
  read : (readSniffHead c.read).isSome
  proxy : action cm set sniffEnabled target port c = .proxy
  failed : openConnection c port = none

theorem clientWrites_of_failsLate (h : FailsLate cm set sniffEnabled target port c) :
    clientWrites cm set sniffEnabled target port c = [.reply REP_OK, .reply REP_GENERAL] := by
  obtain ⟨hs, ha, hr, hp, hf⟩ := h
  have ⟨head, hh⟩ := Option.isSome_iff_exists.mp hr
  rw [action, if_pos hs, hh, Option.getD_some] at hp
  rw [clientWrites, messages, if_pos hs, hh]
  dsimp only
  rw [handleRouted, hp]
  dsimp only
  rw [handleProxy, hf]
  dsimp only
  rw [writeEach, if_pos ha, writeEach]
  split
  case isTrue => rfl
  case isFalse => rfl

theorem oneReply_of_not_failsLate (h : ¬ FailsLate cm set sniffEnabled target port c) :
    OneReply (c.remoteSide port (action cm set sniffEnabled target port c))
      (clientWrites cm set sniffEnabled target port c) := by
  by_cases hs : sniffs set sniffEnabled target
  case neg =>
    refine OneReply.mono ?_ (prefix_writeEach ..)
    rw [messages, if_neg hs, action, if_neg hs]
    exact oneReply_handleRouted
  case pos =>
    by_cases ha : c.accepts 0
    case neg =>
      rw [clientWrites, messages, if_pos hs, writeEach, if_neg ha]
      exact oneReply_singleton REP_OK
    case pos =>
      refine OneReply.mono ?_ (prefix_writeEach ..)
      rw [messages, if_pos hs]
      cases hr : readSniffHead c.read
      case none => exact oneReply_singleton REP_OK
      case some head =>
        have he : action cm set sniffEnabled target port c = connectAction cm set sniffEnabled target port head := by
          rw [action, if_pos hs, hr, Option.getD_some]
        have ⟨l, hl, hm⟩ := handleRouted_true fun ⟨hp, hf⟩ => h ⟨hs, ha, by rw [hr]; rfl, he.trans hp, hf⟩
        dsimp only
        rw [hm, he]
        exact oneReply_ok_append hl

theorem oneReply_clientWrites_iff (cm : CaseMap) (set : RuleSet) (sniffEnabled : Bool) (target : Target) (port : UInt16)
    (c : Course) :
    OneReply (c.remoteSide port (action cm set sniffEnabled target port c))
        (clientWrites cm set sniffEnabled target port c) ↔
      ¬ FailsLate cm set sniffEnabled target port c := by
  constructor
  case mp =>
    intro h hf
    rw [clientWrites_of_failsLate hf] at h
    exact not_oneReply_pair h
  case mpr => exact oneReply_of_not_failsLate

-- There is a rule for a name, the client sends nothing and the address cannot be reached.
def oneName : RuleSet where
  block := [.domainFull "ads.example".toList]
  direct := []

def unreached : Course where
  read := .timeout
  gateway := none
  answer := .error .noAnswer
  dialed := false
  connected := false
  forwarded := true
  chunks := []
  accepts _ := true

theorem not_oneReply_clientWrites :
    ¬ OneReply (unreached.remoteSide 443 (action .ascii oneName true (.ip (.v4 (.new 1 2 3 4))) 443 unreached))
      (clientWrites .ascii oneName true (.ip (.v4 (.new 1 2 3 4))) 443 unreached) := by
  have hw : clientWrites .ascii oneName true (.ip (.v4 (.new 1 2 3 4))) 443 unreached =
      [.reply REP_OK, .reply REP_GENERAL] := by decide +kernel
  rw [hw]
  exact not_oneReply_pair

end Connect

end Engine.Socks
