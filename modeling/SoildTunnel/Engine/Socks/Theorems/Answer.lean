import SoildTunnel.Engine.Socks.Gateway
import SoildTunnel.Rust.Pattern

-- How the gateway's answer is cut into chunks makes no difference.
namespace Engine.Socks

open Rust List

theorem findHeadEnd_cons (b : UInt8) (rest : Bytes) :
    findHeadEnd (b :: rest) = if CRLFCRLF <+: b :: rest then some 4 else (findHeadEnd rest).map (· + 1) := by
  simp only [findHeadEnd, isPrefixOf_iff_prefix]

variable {head buf : Bytes} {n : Nat}

theorem findHeadEnd_eq_some (h : findHeadEnd buf = some n) : ∃ x rest, buf = x ++ CRLFCRLF ++ rest ∧ n = (x ++ CRLFCRLF).length := by
  induction buf generalizing n
  case nil => cases h
  case cons b buf ih =>
    rw [findHeadEnd_cons] at h
    split at h
    case isTrue hp =>
      cases h
      obtain ⟨rest, hr⟩ := hp
      exact ⟨[], rest, hr.symm, rfl⟩
    case isFalse =>
      obtain ⟨m, hm, rfl⟩ := Option.map_eq_some_iff.mp h
      obtain ⟨x, rest, rfl, rfl⟩ := ih hm
      exact ⟨b :: x, rest, rfl, rfl⟩

theorem le_length_of_findHeadEnd (h : findHeadEnd buf = some n) : 4 ≤ n ∧ n ≤ buf.length := by
  obtain ⟨x, rest, rfl, rfl⟩ := findHeadEnd_eq_some h
  simp only [length_append, CRLFCRLF, length_cons, length_nil]
  omega

theorem findHeadEnd_append (h : findHeadEnd buf = some n) (rest : Bytes) : findHeadEnd (buf ++ rest) = some n := by
  induction buf generalizing n
  case nil => cases h
  case cons b buf ih =>
    have hl := le_length_of_findHeadEnd h
    have hp : CRLFCRLF <+: b :: (buf ++ rest) ↔ CRLFCRLF <+: b :: buf := by
      constructor
      case mp => exact fun h' => prefix_of_prefix_length_le h' (prefix_append (b :: buf) rest) (hl.1.trans hl.2)
      case mpr => exact fun h' => h'.trans (prefix_append (b :: buf) rest)
    rw [findHeadEnd_cons] at h
    rw [cons_append, findHeadEnd_cons, if_congr hp rfl rfl]
    split at h
    case isTrue hp => rw [if_pos hp, h]
    case isFalse hp =>
      obtain ⟨m, hm, rfl⟩ := Option.map_eq_some_iff.mp h
      rw [if_neg hp, ih hm]
      rfl

-- The head ends where the bytes end, and not earlier.
def IsHead (head : Bytes) : Prop :=
  findHeadEnd head = some head.length

instance : DecidablePred IsHead :=
  fun head => inferInstanceAs (Decidable (findHeadEnd head = some head.length))

theorem IsHead.findHeadEnd_of_lt (h : IsHead head) (hp : buf <+: head) (hl : buf.length < head.length) :
    findHeadEnd buf = none := by
  cases hf : findHeadEnd buf
  case none => rfl
  case some n =>
    obtain ⟨rest, rfl⟩ := hp
    have := le_length_of_findHeadEnd hf
    have hn := Option.some.inj ((findHeadEnd_append hf rest).symm.trans h)
    omega

theorem IsHead.eq_append (h : IsHead head) : ∃ x, head = x ++ CRLFCRLF := by
  obtain ⟨x, rest, hr, hl⟩ := findHeadEnd_eq_some h
  rw [hr, length_append] at hl
  have : rest = [] := eq_nil_of_length_eq_zero (by omega)
  exact ⟨x, by rw [hr, this, append_nil]⟩

theorem IsHead.fromUtf8Lossy_append (h : IsHead head) (rest : Bytes) :
    Text.fromUtf8Lossy (head ++ rest) = Text.fromUtf8Lossy head ++ Text.fromUtf8Lossy rest := by
  obtain ⟨x, rfl⟩ := h.eq_append
  have hb : (10 : UInt8) < 0x80 := by decide
  have hx : x ++ CRLFCRLF = (x ++ [13, 10, 13]) ++ [10] := by simp [CRLFCRLF]
  rw [hx, append_assoc, singleton_append, Text.fromUtf8Lossy_append_ascii hb, Text.fromUtf8Lossy_append_ascii hb,
    append_assoc, cons_append, Text.fromUtf8Lossy, nil_append]

theorem IsHead.proxyConnectSucceeded_append (h : IsHead head) (rest : Bytes) :
    proxyConnectSucceeded (head ++ rest) = proxyConnectSucceeded head := by
  have hs : (Text.splitOnce ['\r', '\n'] (Text.fromUtf8Lossy head)).isSome := by
    obtain ⟨x, rfl⟩ := h.eq_append
    exact Text.splitOnce_crlf_isSome x [13, 10]
  obtain ⟨⟨line, rest'⟩, hs⟩ := Option.isSome_iff_exists.mp hs
  rw [proxyConnectSucceeded, proxyConnectSucceeded, h.fromUtf8Lossy_append, Text.splitOnce_append hs, hs]
  rfl

namespace Attempt

variable (a : Attempt)

-- What an answer comes to, by its head, and with what has come behind it.
def verdict (head leftover : Bytes) : AttemptPc :=
  match proxyConnectSucceeded head with
  | none => .failed .malformed
  | some false => .failed (.refused a.target.display a.port (Text.trim (Text.firstLine (Text.fromUtf8Lossy head))))
  | some true => .through leftover

theorem verdict_ne_answer (head leftover buf : Bytes) : a.verdict head leftover ≠ .answer buf := by
  unfold verdict
  split <;> exact AttemptPc.noConfusion

theorem readAnswer_of_lt (h : IsHead head) (hl : head.length ≤ GATEWAY_HEAD_LIMIT) (hp : buf <+: head)
    (hb : buf.length < head.length) : a.readAnswer buf = .answer buf := by
  rw [readAnswer, h.findHeadEnd_of_lt hp hb]
  exact if_neg (by omega)

theorem readAnswer_append (h : IsHead head) (leftover : Bytes) : a.readAnswer (head ++ leftover) = a.verdict head leftover := by
  rw [readAnswer, findHeadEnd_append h, h.proxyConnectSucceeded_append]
  dsimp only
  rw [take_left, drop_left]
  rfl

theorem receive_of_lt {rest : Bytes} (h : IsHead head) (hl : head.length ≤ GATEWAY_HEAD_LIMIT) {chunks : List Bytes}
    (hb : buf.length < head.length) (hc : buf ++ chunks.flatten = head ++ rest) :
    ∃ leftover later, a.receive buf chunks = (a.verdict head leftover, later) ∧ leftover ++ later.flatten = rest := by
  induction chunks generalizing buf
  case nil =>
    have := congrArg List.length hc
    simp only [flatten_nil, length_append, length_nil] at this
    omega
  case cons chunk chunks ih =>
    rw [flatten_cons, ← append_assoc] at hc
    by_cases hb' : (buf ++ chunk).length < head.length
    case pos =>
      have hp : buf ++ chunk <+: head :=
        prefix_of_prefix_length_le ⟨_, hc⟩ (prefix_append head rest) (Nat.le_of_lt hb')
      rw [receive, a.readAnswer_of_lt h hl hp hb']
      exact ih hb' hc
    case neg =>
      obtain ⟨leftover, hleft⟩ : head <+: buf ++ chunk :=
        prefix_of_prefix_length_le (prefix_append head rest) ⟨_, hc⟩ (Nat.le_of_not_lt hb')
      refine ⟨leftover, chunks, ?_, ?_⟩
      · rw [receive, ← hleft, a.readAnswer_append h]
        split
        case h_1 hv => exact (a.verdict_ne_answer _ _ _ hv).elim
        case h_2 => rfl
      · rw [← hleft, append_assoc] at hc
        exact append_cancel_left hc

-- The verdict is that of the head, and no byte behind it is lost.
theorem receive_chunks (head rest : Bytes) (h : IsHead head) (hl : head.length ≤ GATEWAY_HEAD_LIMIT) (chunks : List Bytes)
    (hc : chunks.flatten = head ++ rest) :
    ∃ leftover later, a.receive [] chunks = (a.verdict head leftover, later) ∧ leftover ++ later.flatten = rest :=
  a.receive_of_lt h hl (Nat.lt_of_lt_of_le (by decide) (le_length_of_findHeadEnd h).1) hc

theorem receive_chunks_split :
    let a : Attempt := ⟨.domain ['a'], 80, .answer []⟩
    let head : Bytes := Text.utf8 "HTTP/1.1 200 OK\r\n\r\n".toList
    ∃ leftover later, a.receive [] [head.take 17, head.drop 17 ++ [1], [2, 3]] = (a.verdict head leftover, later) ∧
      leftover ++ later.flatten = [1, 2, 3] :=
  receive_chunks _ _ [1, 2, 3] (by decide +kernel) (by decide +kernel) _ (by decide +kernel)

end Attempt

end Engine.Socks
