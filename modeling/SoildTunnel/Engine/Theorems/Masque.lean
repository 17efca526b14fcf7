import SoildTunnel.Engine.Masque
import SoildTunnel.Lib.Varint

-- The control stream is read in the same way however it is cut into pieces.
namespace Engine.Masque.CapsuleParser

open Option List

open Octets (getVarint)

def header (b : Bytes) : Option (Nat × Nat × Bytes) :=
  (Incremental.next getVarint b).bind fun (kind, b) =>
    (Incremental.next getVarint b).map fun (len, b) => (kind, len, b)

theorem header_eq_some {b r : Bytes} {kind len : Nat} (h : header b = some (kind, len, r)) :
    ∃ p, b = p ++ r ∧ ∀ c, header (p ++ c) = some (kind, len, c) := by
  have ⟨⟨k, b₁⟩, h₁, h⟩ := bind_eq_some_iff.mp h
  have ⟨⟨l, b₂⟩, h₂, he⟩ := map_eq_some_iff.mp h
  cases he
  have ⟨p, hp, hc⟩ := Octets.next_getVarint_eq_some h₁
  have ⟨q, hq, hd⟩ := Octets.next_getVarint_eq_some h₂
  refine ⟨p ++ q, by rw [hp, hq, append_assoc], fun c => ?_⟩
  simp [header, append_assoc, hc, hd]

theorem next_next (abi : Abi) (b : Bytes) : Incremental.next (next abi) b =
      (header b).bind fun (kind, len, r) =>
        if abi.usize len ≤ r.length then some (capsule kind (r.take (abi.usize len)), r.drop (abi.usize len))
        else none := by
  simp only [Incremental.next, next, header, Octets.getBytes]
  cases h₁ : getVarint b
  case none => rfl
  case some x₁ =>
    cases h₂ : getVarint x₁.2.val
    case none => simp [h₂]
    case some x₂ =>
      simp only [h₂, Option.bind_eq_bind, Option.bind_some, Option.map_some, Option.pure_def]
      split
      case isTrue => rfl
      case isFalse => rfl

theorem next_call (abi : Abi) (b : Bytes) : Incremental.next (call abi) b =
      (Incremental.next (next abi) b).map fun (result, r) => (⟨b.take (b.length - r.length), result⟩, r) := by
  simp only [Incremental.next, call, Option.map_map]
  rfl

variable {abi : Abi} {b r : Bytes} {c : Call}

-- What is removed is a header, and as many bytes as the machine makes of the length in it.
structure Removed (abi : Abi) (b r : Bytes) (c : Call) (kind len : Nat) (head value : Bytes) : Prop where
  header_append : ∀ x, header (head ++ x) = some (kind, len, x)
  length_value : value.length = abi.usize len
  buffer : b = head ++ value ++ r
  eq_call : c = ⟨head ++ value, capsule kind value⟩

theorem Removed.next_eq_some {kind len : Nat} {head value : Bytes}
    (h : Removed abi b r c kind len head value) : Incremental.next (call abi) b = some (c, r) := by
  have hn : Incremental.next (next abi) b = some (capsule kind value, r) := by
    rw [next_next, h.buffer, append_assoc, h.header_append]
    simp [← h.length_value]
  have hl : b.length - r.length = (head ++ value).length := by
    rw [h.buffer, length_append, Nat.add_sub_cancel]
  have ht : b.take (head ++ value).length = head ++ value := by rw [h.buffer, take_left]
  simp only [next_call, hn, map_some, hl, ht, h.eq_call]

theorem removed_of_next_eq_some (h : Incremental.next (call abi) b = some (c, r)) :
    ∃ kind len head value, Removed abi b r c kind len head value := by
  rw [next_call, next_next] at h
  have ⟨⟨result, rest⟩, hn, he⟩ := map_eq_some_iff.mp h
  have ⟨⟨kind, len, tail⟩, hh, hn⟩ := bind_eq_some_iff.mp hn
  have ⟨hl, hn⟩ := ite_none_right_eq_some.mp hn
  cases hn
  cases he
  have ⟨head, hb, ha⟩ := header_eq_some hh
  have ht : b = head ++ tail.take (abi.usize len) ++ tail.drop (abi.usize len) := by
    rw [append_assoc, take_append_drop, hb]
  have hd : b.length - (tail.drop (abi.usize len)).length = (head ++ tail.take (abi.usize len)).length := by
    rw [hb]; simp; omega
  refine ⟨kind, len, head, tail.take (abi.usize len), ha, by simpa using hl, ht, ?_⟩
  rw [hd, ht, take_left]

theorem stable_call (abi : Abi) : Incremental.Stable (call abi) := by
  intro b x c r h
  have ⟨kind, len, head, value, hr⟩ := removed_of_next_eq_some h
  have hr' : Removed abi (b ++ x) (r ++ x) c kind len head value :=
    { hr with buffer := by rw [hr.buffer, append_assoc] }
  exact hr'.next_eq_some

def Call.Failed (c : Call) : Prop :=
  ∃ e, c.result = .error e

-- As many bytes follow the header as it says.
def Call.Own (c : Call) : Prop :=
  ∃ kind value, header c.drained = some (kind, value.length, value)

-- The machine can hold the length that the header says.
def Call.Holds (abi : Abi) (c : Call) : Prop :=
  ∀ kind len value, header c.drained = some (kind, len, value) → abi.usize len = len

theorem own_iff_holds (h : Incremental.next (call abi) b = some (c, r)) : c.Own ↔ c.Holds abi := by
  have ⟨kind, len, head, value, hr⟩ := removed_of_next_eq_some h
  have hd : header c.drained = some (kind, len, value) := by rw [hr.eq_call, hr.header_append]
  constructor
  case mp =>
    rintro ⟨kind', value', ho⟩ k l v hl
    rw [hd] at ho hl
    cases ho
    cases hl
    exact hr.length_value.symm
  case mpr =>
    intro hh
    exact ⟨kind, value, by rw [hd, hr.length_value, hh kind len value hd]⟩

-- No push makes the buffer grow too large.
def Fits (abi : Abi) (buf : Bytes) : List Bytes → Prop
  | [] => True
  | data :: chunks =>
    buf.length + data.length ≤ MAX_CAPSULE_BUF ∧ Fits abi (Incremental.drain (call abi) (buf ++ data)).2 chunks

structure Split (abi : Abi) (stream : Bytes) where
  chunks : List Bytes
  flatten_chunks : chunks.flatten = stream
  fits : Fits abi [] chunks

theorem feed_eq_feed {buf : Bytes} {chunks : List Bytes} (h : Fits abi buf chunks) :
    feed abi buf chunks = Incremental.feed (call abi) buf chunks := by
  induction chunks generalizing buf
  case nil => rfl
  case cons data chunks ih =>
    have hp : push buf data = buf ++ data := if_neg (Nat.not_lt.mpr h.1)
    rw [Incremental.feed_cons, ← ih h.2, ← hp]
    rfl

theorem Split.feed_eq {stream : Bytes} (s : Split abi stream) :
    feed abi [] s.chunks = Incremental.drain (call abi) stream := by
  rw [feed_eq_feed s.fits, Incremental.feed_eq_drain (stable_call abi) rfl, s.flatten_chunks, nil_append]

-- Both cuts give the same calls and leave the same bytes. That a call which fails removes its own
-- capsule depends on the machine.
theorem feed_independent_iff (abi : Abi) {stream : Bytes} (s s' : Split abi stream) :
    (feed abi [] s.chunks = feed abi [] s'.chunks ∧ ∀ c ∈ (feed abi [] s.chunks).1, c.Failed → c.Own) ↔
      ∀ c ∈ (Incremental.drain (call abi) stream).1, c.Failed → c.Holds abi := by
  rw [s.feed_eq, s'.feed_eq, eq_self, true_and]
  refine forall₂_congr fun c hc => imp_congr_right fun _ => ?_
  have ⟨b, r, h⟩ := Incremental.mem_drain hc
  exact own_iff_holds h

def longAssignment : Split .armv7 [0x01, 0xc0, 0, 0, 1, 0, 0, 0, 1, 0] where
  chunks := [[0x01, 0xc0, 0, 0, 1, 0, 0, 0, 1, 0]]
  flatten_chunks := rfl
  fits := ⟨by decide, trivial⟩

def shortCall : Call := ⟨[0x01, 0xc0, 0, 0, 1, 0, 0, 0, 1, 0], .error "BufferTooShortError"⟩

theorem header_longAssignment : header [0x01, 0xc0, 0, 0, 1, 0, 0, 0, 1, 0] = some (1, 2 ^ 32 + 1, [0]) := by decide

theorem capsule_cutAssignment : capsule 1 [0] = .error "BufferTooShortError" := by
  simp only [capsule, parseAddressAssign, Octets.many]
  rfl

theorem next_longAssignment :
    Incremental.next (call .armv7) [0x01, 0xc0, 0, 0, 1, 0, 0, 0, 1, 0] = some (shortCall, []) := by
  rw [next_call, next_next, header_longAssignment]
  simp [Abi.usize, capsule_cutAssignment, shortCall]

theorem not_own_shortCall : ¬ shortCall.Own := by
  rintro ⟨kind, value, h⟩
  rw [shortCall, header_longAssignment] at h
  obtain ⟨-, hl, rfl⟩ : 1 = kind ∧ 2 ^ 32 + 1 = value.length ∧ [0] = value := by simpa using h
  exact absurd hl (by decide)

theorem not_feed_independent : ¬ (feed .armv7 [] longAssignment.chunks = feed .armv7 [] longAssignment.chunks ∧
      ∀ c ∈ (feed .armv7 [] longAssignment.chunks).1, c.Failed → c.Own) := by
  rintro ⟨-, h⟩
  have hc : shortCall ∈ (feed .armv7 [] longAssignment.chunks).1 := by
    rw [longAssignment.feed_eq, Incremental.drain_of_some next_longAssignment]
    exact mem_cons_self
  exact not_own_shortCall (h shortCall hc ⟨_, rfl⟩)

end Engine.Masque.CapsuleParser
