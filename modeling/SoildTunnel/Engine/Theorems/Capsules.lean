import SoildTunnel.Engine.Theorems.Datagram
import SoildTunnel.Lib.Lts

-- What is left in the buffer, and where in the stream the parser stands.
namespace Engine.Masque

open List Option

-- The two clients. One of them hands packets on while it drains the buffer.
inductive Client
  | h3
  | h2 (inboundTx : Nat → TrySend)

def Client.Open : Client → Prop
  | .h3 => True
  | .h2 inboundTx => ∀ n, inboundTx n ≠ .closed

def Client.drained (abi : Abi) : Client → Bytes → Bytes
  | .h3, buf => (drainCapsules abi buf).2
  | .h2 inboundTx, buf => (drainCapsulesH2 abi inboundTx 0 buf).buf

section Drain

variable {abi : Abi} {b r : Bytes} {e : String} {c : Capsule} {result : Except String Capsule}

theorem next_eq_some (h : Incremental.next (CapsuleParser.next abi) b = some (result, r)) :
    ∃ hr, CapsuleParser.next abi b = some (result, ⟨r, hr⟩) := by
  have ⟨⟨x, s⟩, hn, he⟩ := map_eq_some_iff.mp h
  obtain ⟨rfl, rfl⟩ := Prod.mk.inj he
  exact ⟨s.property, hn⟩

theorem next_eq_none (h : Incremental.next (CapsuleParser.next abi) b = none) : CapsuleParser.next abi b = none :=
  map_eq_none_iff.mp h

section H3

theorem drainCapsules_of_none (h : Incremental.next (CapsuleParser.next abi) b = none) :
    (drainCapsules abi b).2 = b := by
  rw [drainCapsules, next_eq_none h]

theorem drainCapsules_of_error (h : Incremental.next (CapsuleParser.next abi) b = some (.error e, r)) :
    (drainCapsules abi b).2 = r := by
  obtain ⟨_, hn⟩ := next_eq_some h
  rw [drainCapsules, hn]

theorem drainCapsules_of_ok (h : Incremental.next (CapsuleParser.next abi) b = some (.ok c, r)) :
    (drainCapsules abi b).2 = (drainCapsules abi r).2 := by
  obtain ⟨_, hn⟩ := next_eq_some h
  rw [drainCapsules, hn]
  cases c <;> rfl

end H3

section H2

variable {inboundTx : Nat → TrySend} {n : Nat}

theorem drainCapsulesH2_of_none (h : Incremental.next (CapsuleParser.next abi) b = none) :
    (drainCapsulesH2 abi inboundTx n b).buf = b := by
  rw [drainCapsulesH2, next_eq_none h]

theorem drainCapsulesH2_of_error (h : Incremental.next (CapsuleParser.next abi) b = some (.error e, r)) :
    (drainCapsulesH2 abi inboundTx n b).buf = r := by
  obtain ⟨_, hn⟩ := next_eq_some h
  rw [drainCapsulesH2, hn]

theorem drainCapsulesH2_of_ok (ho : ∀ n, inboundTx n ≠ .closed)
    (h : Incremental.next (CapsuleParser.next abi) b = some (.ok c, r)) :
    ∃ m, (drainCapsulesH2 abi inboundTx n b).buf = (drainCapsulesH2 abi inboundTx m r).buf := by
  obtain ⟨_, hn⟩ := next_eq_some h
  rw [drainCapsulesH2, hn]
  cases c
  case datagram payload =>
    dsimp only
    cases stripDatagramContext payload
    case none => exact ⟨n, rfl⟩
    case some pkt =>
      dsimp only
      cases ht : inboundTx n
      case ok => exact ⟨n + 1, rfl⟩
      case full => exact ⟨n + 1, rfl⟩
      case closed => exact absurd ht (ho n)
  all_goals exact ⟨n, rfl⟩

end H2

-- The capsules that are complete, whether they can be read or not.
def complete (abi : Abi) (b : Bytes) : List CapsuleParser.Call :=
  (Incremental.drain (CapsuleParser.call abi) b).1

theorem next_call_eq_none (h : Incremental.next (CapsuleParser.call abi) b = none) :
    Incremental.next (CapsuleParser.next abi) b = none := by
  rw [CapsuleParser.next_call, map_eq_none_iff] at h
  exact h

theorem next_call_eq_some {call : CapsuleParser.Call} (h : Incremental.next (CapsuleParser.call abi) b = some (call, r)) :
    Incremental.next (CapsuleParser.next abi) b = some (call.result, r) := by
  rw [CapsuleParser.next_call] at h
  have ⟨⟨x, s⟩, hn, he⟩ := map_eq_some_iff.mp h
  cases he
  exact hn

theorem complete_eq_nil_iff : complete abi b = [] ↔ Incremental.next (CapsuleParser.next abi) b = none := by
  cases h : Incremental.next (CapsuleParser.call abi) b
  case none => simp [complete, Incremental.drain_of_none h, next_call_eq_none h]
  case some p => simp [complete, Incremental.drain_of_some h, next_call_eq_some h]

-- Only the last one may be unreadable.
def ReadableButLast (abi : Abi) (b : Bytes) : Prop :=
  ∀ call ∈ (complete abi b).dropLast, ¬ call.Failed

theorem readableButLast_of_none (h : Incremental.next (CapsuleParser.call abi) b = none) : ReadableButLast abi b := by
  rw [ReadableButLast, complete, Incremental.drain_of_none h]
  exact nofun

theorem readableButLast_iff {call : CapsuleParser.Call} (h : Incremental.next (CapsuleParser.call abi) b = some (call, r)) :
    ReadableButLast abi b ↔ complete abi r = [] ∨ ¬ call.Failed ∧ ReadableButLast abi r := by
  have hc : complete abi b = call :: complete abi r := by rw [complete, Incremental.drain_of_some h]; rfl
  rw [ReadableButLast, hc]
  cases hr : complete abi r
  case nil => simp
  case cons x l => rw [dropLast_cons_cons, forall_mem_cons, ReadableButLast, hr]; simp

theorem next_drained_iff {D : Bytes → Bytes → Prop}
    (hn : ∀ b d, D b d → Incremental.next (CapsuleParser.next abi) b = none → d = b)
    (he : ∀ b d e r, D b d → Incremental.next (CapsuleParser.next abi) b = some (.error e, r) → d = r)
    (ho : ∀ b d c r, D b d → Incremental.next (CapsuleParser.next abi) b = some (.ok c, r) → D r d)
    (d : Bytes) (h : D b d) : Incremental.next (CapsuleParser.next abi) d = none ↔ ReadableButLast abi b := by
  induction b using Incremental.drain_induction (CapsuleParser.call abi)
  case none b hb =>
    have hb' := next_call_eq_none hb
    rw [hn b d h hb']
    exact iff_of_true hb' (readableButLast_of_none hb)
  case some b call r hb ih =>
    have hb' := next_call_eq_some hb
    rw [readableButLast_iff hb, ← complete_eq_nil_iff]
    cases hr : call.result
    case error e =>
      have hf : call.Failed := ⟨e, hr⟩
      rw [hr] at hb'
      rw [he b d e r h hb']
      simp [hf]
    case ok c =>
      have hf : ¬ call.Failed := by
        rintro ⟨e, h⟩
        rw [hr] at h
        cases h
      rw [hr] at hb'
      rw [complete_eq_nil_iff, ih (ho b d c r h hb')]
      refine ⟨fun h => .inr ⟨hf, h⟩, ?_⟩
      rintro (hz | ⟨_, h⟩)
      · exact readableButLast_of_none (by rw [CapsuleParser.next_call, complete_eq_nil_iff.mp hz]; rfl)
      · exact h

end Drain

-- Nothing complete is left exactly when no capsule stands behind one that cannot be read.
theorem next_drained_eq_none_iff (abi : Abi) (client : Client) (isOpen : client.Open) (b : Bytes) :
    Incremental.next (CapsuleParser.next abi) (client.drained abi b) = none ↔ ReadableButLast abi b := by
  cases client
  case h3 =>
    refine next_drained_iff (D := fun b d => d = (drainCapsules abi b).2) ?_ ?_ ?_ _ rfl
    · rintro b d rfl h
      exact drainCapsules_of_none h
    · rintro b d e r rfl h
      exact drainCapsules_of_error h
    · rintro b d c r rfl h
      exact drainCapsules_of_ok h
  case h2 inboundTx =>
    refine next_drained_iff (D := fun b d => ∃ n, d = (drainCapsulesH2 abi inboundTx n b).buf) ?_ ?_ ?_ _ ⟨0, rfl⟩
    · rintro b d ⟨n, rfl⟩ h
      exact drainCapsulesH2_of_none h
    · rintro b d e r ⟨n, rfl⟩ h
      exact drainCapsulesH2_of_error h
    · rintro b d c r ⟨n, rfl⟩ h
      exact drainCapsulesH2_of_ok isOpen h

theorem next_unreadable {b r : Bytes} (h : CapsuleParser.header b = some (1, 1, 0 :: r)) :
    Incremental.next (CapsuleParser.next .arm64) b = some (.error "BufferTooShortError", r) := by
  rw [CapsuleParser.next_next, h]
  simp [Abi.usize, CapsuleParser.capsule_cutAssignment]

theorem readableButLast_unreadable : ReadableButLast .arm64 [1, 1, 0] := by
  have hn : Incremental.next (CapsuleParser.call .arm64) [1, 1, 0] = some (⟨[1, 1, 0], .error "BufferTooShortError"⟩, []) := by
    rw [CapsuleParser.next_call, next_unreadable (r := []) (by decide)]
    rfl
  rw [readableButLast_iff hn]
  exact .inl (complete_eq_nil_iff.mpr rfl)

theorem next_drained_eq_none_unreadable : (Client.h2 fun _ => .ok).Open ∧
      Incremental.next (CapsuleParser.next .arm64) ((Client.h2 fun _ => .ok).drained .arm64 [1, 1, 0]) = none :=
  have isOpen : (Client.h2 fun _ => .ok).Open := fun _ => nofun
  ⟨isOpen, (next_drained_eq_none_iff .arm64 _ isOpen _).mpr readableButLast_unreadable⟩

-- The datagram waits in the buffer of either client.
theorem not_next_drained_eq_none :
    Incremental.next (CapsuleParser.next .arm64) (Client.h3.drained .arm64 [1, 1, 0, 0, 0]) ≠ none ∧
      Incremental.next (CapsuleParser.next .arm64) ((Client.h2 fun _ => .ok).drained .arm64 [1, 1, 0, 0, 0]) ≠ none := by
  constructor
  case left =>
    rw [Client.drained, drainCapsules_of_error (next_unreadable (r := [0, 0]) (by decide))]
    decide
  case right =>
    rw [Client.drained, drainCapsulesH2_of_error (next_unreadable (r := [0, 0]) (by decide))]
    decide

-- A capsule as it is written: its header, however long the two numbers in it are, and its value.
structure Frame where
  kind : Nat
  head : Bytes
  value : Bytes
  header_append : ∀ x, CapsuleParser.header (head ++ x) = some (kind, value.length, x)

namespace Frame

def bytes (f : Frame) : Bytes :=
  f.head ++ f.value

def capsule (f : Frame) : Except String Capsule :=
  Masque.capsule f.kind f.value

def Fits (abi : Abi) (f : Frame) : Prop :=
  abi.usize f.value.length = f.value.length

def stream (frames : List Frame) : Bytes :=
  frames.flatMap bytes

theorem bytes_ne_nil (f : Frame) : f.bytes ≠ [] := by
  intro h
  have hh : f.head = [] := (append_eq_nil_iff.mp h).left
  have := f.header_append []
  rw [hh] at this
  cases this

@[simp]
theorem stream_nil : stream [] = [] := rfl

theorem stream_cons (f : Frame) (fs : List Frame) : stream (f :: fs) = f.bytes ++ stream fs :=
  flatMap_cons

theorem stream_append (fs fs' : List Frame) : stream (fs ++ fs') = stream fs ++ stream fs' :=
  flatMap_append

theorem eq_nil_of_stream {fs : List Frame} (h : stream fs = []) : fs = [] := by
  cases fs
  case nil => rfl
  case cons f fs =>
    rw [stream_cons] at h
    exact absurd (append_eq_nil_iff.mp h).left f.bytes_ne_nil

theorem prefix_of_stream {fs fs' frames : List Frame} (h : fs <+: frames) (h' : fs' <+: frames)
    (hs : stream fs <+: stream fs') : fs <+: fs' := by
  rcases prefix_or_prefix_of_prefix h h' with h | ⟨more, rfl⟩
  · exact h
  · rw [stream_append] at hs
    have hl := hs.length_le
    rw [length_append] at hl
    have hm : more = [] := eq_nil_of_stream (eq_nil_of_length_eq_zero (by omega))
    simp [hm]

theorem next_stream {abi : Abi} {f : Frame} (hf : f.Fits abi) (fs : List Frame) :
    Incremental.next (CapsuleParser.next abi) (stream (f :: fs)) = some (f.capsule, stream fs) := by
  rw [CapsuleParser.next_next, stream_cons, bytes, append_assoc, f.header_append, bind_some]
  dsimp only
  rw [hf]
  simp [capsule]

end Frame

theorem stable_next (abi : Abi) : Incremental.Stable (CapsuleParser.next abi) := by
  intro b x result r h
  have hc : Incremental.next (CapsuleParser.call abi) b = some (⟨b.take (b.length - r.length), result⟩, r) := by
    rw [CapsuleParser.next_call, h, map_some]
  exact next_call_eq_some (CapsuleParser.stable_call abi b x _ r hc)

structure Reader where
  buf : Bytes
  received : Bytes
  returned : List (Except String Capsule)

namespace Reader

inductive Move
  | push (data : Bytes)
  | next

def new : Reader := ⟨[], [], []⟩

-- What is pushed is what comes next on the stream.
def step (abi : Abi) (frames : List Frame) (s : Reader) : Move → Option Reader
  | .push data =>
    if s.received ++ data <+: Frame.stream frames then
      some { s with buf := CapsuleParser.push s.buf data, received := s.received ++ data }
    else none
  | .next =>
    match Incremental.next (CapsuleParser.next abi) s.buf with
    | none => some s
    | some (result, rest) => some { s with buf := rest, returned := s.returned ++ [result] }

def InOrder (frames : List Frame) (s : Reader) : Prop :=
  List.Sublist s.returned (frames.map Frame.capsule)

-- Bytes are thrown away only up to the end of a capsule.
def Aligned (frames : List Frame) (s : Reader) : Move → Prop
  | .push data =>
    s.buf.length + data.length ≤ MAX_CAPSULE_BUF ∨ s.received ++ data ∈ frames.inits.map Frame.stream
  | .next => True

instance (frames : List Frame) (s : Reader) : (move : Move) → Decidable (Aligned frames s move)
  | .push _ => inferInstanceAs (Decidable (_ ∨ _))
  | .next => isTrue trivial

-- The buffer starts where a capsule starts.
def InStep (frames : List Frame) (s : Reader) : Prop :=
  ∃ past todo rest, frames = past ++ todo ∧ List.Sublist s.returned (past.map Frame.capsule) ∧
    s.received ++ rest = Frame.stream frames ∧ s.buf ++ rest = Frame.stream todo

section Step

variable {abi : Abi} {frames : List Frame} {s s' : Reader}

theorem inStep_new (frames : List Frame) : InStep frames new :=
  ⟨[], frames, Frame.stream frames, rfl, List.Sublist.refl _, rfl, rfl⟩

theorem InStep.inOrder (h : InStep frames s) : InOrder frames s := by
  obtain ⟨past, todo, _, rfl, hr, _⟩ := h
  rw [InOrder, map_append]
  exact hr.trans (sublist_append_left _ _)

theorem InStep.push {data : Bytes} (h : InStep frames s) (hp : s.received ++ data <+: Frame.stream frames)
    (hl : s.buf.length + data.length ≤ MAX_CAPSULE_BUF) :
    InStep frames { s with buf := CapsuleParser.push s.buf data, received := s.received ++ data } := by
  obtain ⟨past, todo, rest, hf, hr, hs, hb⟩ := h
  rw [← hs, prefix_append_right_inj] at hp
  obtain ⟨rest, rfl⟩ := hp
  have hpush : CapsuleParser.push s.buf data = s.buf ++ data := if_neg (Nat.not_lt.mpr hl)
  refine ⟨past, todo, rest, hf, hr, ?_, ?_⟩
  · rw [append_assoc, hs]
  · rw [hpush, append_assoc, hb]

theorem InStep.reset {data : Bytes} (h : InStep frames s) (he : s.received ++ data ∈ frames.inits.map Frame.stream) :
    InStep frames { s with buf := [], received := s.received ++ data } := by
  obtain ⟨past, todo, rest, hf, hr, hs, hb⟩ := h
  have ⟨thrown, ht, he⟩ := mem_map.mp he
  have ⟨later, hl⟩ := (mem_inits ..).mp ht
  -- What has been returned lies before the end of what is thrown away.
  have hrec : s.received = Frame.stream past ++ s.buf := by
    rw [hf, Frame.stream_append, ← hb, ← append_assoc] at hs
    exact append_cancel_right hs
  have hpast : past <+: thrown := by
    refine Frame.prefix_of_stream (hf ▸ prefix_append past todo) ⟨later, hl⟩ ?_
    rw [he, hrec, append_assoc]
    exact prefix_append _ _
  refine ⟨thrown, later, Frame.stream later, hl.symm, hr.trans (hpast.sublist.map _), ?_, rfl⟩
  rw [← he, ← hl, Frame.stream_append]

theorem InStep.next {result : Except String Capsule} {rest : Bytes} (hf : ∀ f ∈ frames, f.Fits abi) (h : InStep frames s)
    (hn : Incremental.next (CapsuleParser.next abi) s.buf = some (result, rest)) :
    InStep frames { s with buf := rest, returned := s.returned ++ [result] } := by
  obtain ⟨past, todo, more, rfl, hr, hs, hb⟩ := h
  have hn := stable_next abi _ more _ _ hn
  rw [hb] at hn
  cases todo
  case nil => cases hn
  case cons f todo =>
    rw [Frame.next_stream (hf f (by simp))] at hn
    obtain ⟨rfl, hrest⟩ := Prod.mk.inj (Option.some.inj hn)
    refine ⟨past ++ [f], todo, more, by simp, ?_, hs, hrest.symm⟩
    rw [map_append]
    exact hr.append (List.Sublist.refl _)

theorem InStep.step {move : Move} (hf : ∀ f ∈ frames, f.Fits abi) (h : InStep frames s) (ha : Aligned frames s move)
    (hs : step abi frames s move = some s') : InStep frames s' := by
  cases move
  case push data =>
    obtain ⟨hp, hs⟩ := ite_none_right_eq_some.mp hs
    cases hs
    by_cases hl : s.buf.length + data.length ≤ MAX_CAPSULE_BUF
    case pos => exact h.push hp hl
    case neg =>
      have hpush : CapsuleParser.push s.buf data = [] := if_pos (Nat.lt_of_not_le hl)
      rw [hpush]
      exact h.reset (ha.resolve_left hl)
  case next =>
    rw [Reader.step] at hs
    split at hs
    case h_1 =>
      cases hs
      exact h
    case h_2 hn =>
      cases hs
      exact h.next hf hn

end Step

-- Every run that throws away whole capsules only returns capsules of the stream, in their order.
theorem always_inOrder (abi : Abi) (frames : List Frame) (hf : ∀ f ∈ frames, f.Fits abi) (moves : List Move)
    (h : Lts.Admits (step abi frames) (Aligned frames) new moves) :
    Lts.Always (step abi frames) (InOrder frames) new moves :=
  Lts.always_of_admits (I := InStep frames) (fun _ _ _ hi ha hs => hi.step hf ha hs) (fun _ hi => hi.inOrder)
    (inStep_new frames) h

-- A capsule of a kind the parser does not know, with nothing but zeros in it.
def zeros (n : Nat) (h : n < 2 ^ 62) : Frame where
  kind := 33
  head := Octets.putVarint 33 ++ Octets.putVarint n
  value := List.replicate n 0
  header_append x := by rw [header_putVarint (by decide) h, length_replicate]

theorem always_inOrder_zeros : Lts.Always (step .armv7 [zeros 2 (by decide)]) (InOrder [zeros 2 (by decide)]) new
      [.push [33], .next, .push [2, 0, 0], .next] :=
  always_inOrder .armv7 [zeros 2 (by decide)] (by simp [Frame.Fits, zeros, Abi.usize]) _ (by decide)

section Zeros

variable {n k m : Nat} {h : n < 2 ^ 62}

-- The first bytes of the capsule: its header, and some of the zeros.
def part (n k : Nat) : Bytes :=
  Octets.putVarint 33 ++ Octets.putVarint n ++ List.replicate k 0

theorem part_append (n k m : Nat) : part n k ++ List.replicate m 0 = part n (k + m) := by
  rw [part, part, append_assoc, replicate_append_replicate]

theorem length_part (n k : Nat) : (part n k).length = 1 + Octets.varintLen n + k := by
  simp only [part, length_append, Octets.length_putVarint, length_replicate]
  rfl

theorem part_prefix (hk : k ≤ n) : part n k <+: Frame.stream [zeros n h] := by
  refine ⟨List.replicate (n - k) 0, ?_⟩
  rw [part_append, Nat.add_sub_cancel' hk]
  simp [Frame.stream, Frame.bytes, zeros, part]

def begun (n k : Nat) : Reader := ⟨part n k, part n k, []⟩

theorem step_begun (hk : k + m ≤ n) (hm : 1 + Octets.varintLen n + k + m ≤ MAX_CAPSULE_BUF) :
    step .arm64 [zeros n h] (begun n k) (.push (List.replicate m 0)) = some (begun n (k + m)) := by
  have hpush : CapsuleParser.push (part n k) (List.replicate m 0) = part n (k + m) := by
    rw [CapsuleParser.push, if_neg (by rw [length_part, length_replicate]; omega), part_append]
  rw [step, if_pos (by rw [begun, part_append]; exact part_prefix hk)]
  simp only [begun, hpush, part_append]

-- The capsule does not fit, and its header goes with the buffer.
theorem step_begun_reset (hk : k + m ≤ n) (hm : MAX_CAPSULE_BUF < 1 + Octets.varintLen n + k + m) :
    step .arm64 [zeros n h] (begun n k) (.push (List.replicate m 0)) = some ⟨[], part n (k + m), []⟩ := by
  have hpush : CapsuleParser.push (part n k) (List.replicate m 0) = [] := by
    rw [CapsuleParser.push, if_pos (by rw [length_part, length_replicate]; omega)]
  rw [step, if_pos (by rw [begun, part_append]; exact part_prefix hk)]
  simp only [begun, hpush, part_append]

theorem step_new (hk : k ≤ n) (hm : 1 + Octets.varintLen n + k ≤ MAX_CAPSULE_BUF) :
    step .arm64 [zeros n h] new (.push (part n k)) = some (begun n k) := by
  have hpush : CapsuleParser.push [] (part n k) = part n k := by
    rw [CapsuleParser.push, if_neg (by rw [length_part, length_nil]; omega), nil_append]
  rw [step, if_pos (by exact part_prefix hk)]
  simp only [new, begun, hpush, nil_append]

-- The last two bytes of the capsule are taken for an empty datagram.
theorem exec_zeros (h : 275002 < 2 ^ 62) : (Lts.exec (step .arm64 [zeros 275002 h]) new
      [.push (part 275002 60000), .push (List.replicate 65000 0), .push (List.replicate 65000 0),
        .push (List.replicate 65000 0), .push (List.replicate 20000 0), .push [0, 0], .next]).map returned =
      some [.ok (.datagram [])] := by
  have hl : Octets.varintLen 275002 = 4 := by decide
  have hmax : MAX_CAPSULE_BUF = 262144 := rfl
  have hp : part 275002 (60000 + 65000 + 65000 + 65000 + 20000) ++ [0, 0] <+: Frame.stream [zeros 275002 h] := by
    rw [show ([0, 0] : Bytes) = List.replicate 2 0 from rfl, part_append]
    exact part_prefix (by omega)
  have hn : Incremental.next (CapsuleParser.next .arm64) (CapsuleParser.push [] [0, 0]) = some (.ok (.datagram []), []) := by
    decide
  simp only [Lts.exec_cons, Lts.exec_nil]
  rw [step_new (by omega) (by omega), bind_some, step_begun (by omega) (by omega), bind_some,
    step_begun (by omega) (by omega), bind_some, step_begun (by omega) (by omega), bind_some,
    step_begun_reset (by omega) (by omega), bind_some]
  simp only [step, if_pos hp, bind_some, hn, map_some, nil_append]

theorem not_always_inOrder :
    ¬ Lts.Always (step .arm64 [zeros 275002 (by decide)]) (InOrder [zeros 275002 (by decide)]) new
      [.push (part 275002 60000), .push (List.replicate 65000 0), .push (List.replicate 65000 0),
        .push (List.replicate 65000 0), .push (List.replicate 20000 0), .push [0, 0], .next] := by
  intro ha
  have ⟨s, hs, hr⟩ := map_eq_some_iff.mp (exec_zeros (by decide))
  have hi : InOrder _ s := ha.last hs
  rw [InOrder, hr, singleton_sublist] at hi
  have hc : Except.ok (Capsule.datagram []) = (zeros 275002 (by decide)).capsule := mem_singleton.mp hi
  rw [Frame.capsule, zeros, capsule_unknown (by decide)] at hc
  cases hc

end Zeros

end Reader

end Engine.Masque
