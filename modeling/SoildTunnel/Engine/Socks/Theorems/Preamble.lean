import SoildTunnel.Engine.Socks.Theorems.Http
import SoildTunnel.Rust.Pattern

-- What goes out in front of the body: the head of the request with its first line rewritten.
namespace Engine.Socks

open Rust List Text

variable {head rest stream acc line x tail : Bytes} {request : HttpRequestLine}

theorem readHead_eq_append (h : readHead acc stream = some (head, rest)) : ∃ x, head = x ++ CRLFCRLF := by
  induction stream generalizing acc
  case nil => cases h
  case cons b stream ih =>
    rw [readHead] at h
    split at h
    case isTrue hs =>
      cases h
      obtain ⟨x, hx⟩ := isSuffixOf_iff_suffix.mp hs
      exact ⟨x, hx.symm⟩
    case isFalse =>
      obtain ⟨-, h⟩ := Option.ite_none_left_eq_some.mp h
      exact ih h

-- The request line ends at the first line feed.
def afterLine (head : Bytes) : Bytes :=
  ((Delimited.cut 10 head).map Prod.snd).getD []

theorem afterLine_append (hx : 10 ∉ x) : afterLine (x ++ 10 :: tail) = tail := by
  rw [afterLine, Delimited.cut_append hx]
  rfl

-- The carriage return is there, and the other lines are text.
def Clean (head : Bytes) : Prop :=
  ∃ x, head = x ++ 13 :: 10 :: afterLine head ∧ 10 ∉ x ∧ (Text.fromUtf8 (afterLine head)).isSome

def otherLines (head : Bytes) : Text :=
  ((Text.splitOnce ['\r', '\n'] (Text.fromUtf8Lossy head)).map (·.2)).getD []

theorem otherLines_crlf (hx : 10 ∉ x) : otherLines (x ++ 13 :: 10 :: tail) = Text.fromUtf8Lossy tail := by
  rw [otherLines, fromUtf8Lossy_crlf, splitOnce_crlf (lf_not_mem_fromUtf8Lossy hx)]
  rfl

-- After a line feed that stands alone, the next line is lost.
theorem utf8_otherLines_ne (hx : 10 ∉ x) (hl : x.getLast? ≠ some 13)
    (hs : (Text.splitOnce ['\r', '\n'] (Text.fromUtf8Lossy (x ++ 10 :: tail))).isSome) :
    Text.utf8 (otherLines (x ++ 10 :: tail)) ≠ tail := by
  obtain ⟨⟨a, b⟩, hs⟩ := Option.isSome_iff_exists.mp hs
  have hl' : (Text.fromUtf8Lossy x).getLast? ≠ some '\r' := 
    mt (Text.getLast?_of_fromUtf8Lossy (x := 13) (by decide)) hl
  rw [otherLines, hs]
  intro he
  have hb : Text.fromUtf8Lossy tail = b := by
    rw [← he]
    exact fromUtf8Lossy_utf8 b
  rw [fromUtf8Lossy_lf] at hs
  obtain ⟨z, hz⟩ := splitOnce_lf (lf_not_mem_fromUtf8Lossy hx) hl' hs
  have := congrArg List.length (hb.symm.trans hz)
  simp only [length_append, length_cons, length_nil] at this
  omega

theorem utf8_otherLines_iff (hh : ∃ x, head = x ++ CRLFCRLF) :
    Text.utf8 (otherLines head) = afterLine head ↔ Clean head := by
  have hm : (10 : UInt8) ∈ head := by
    obtain ⟨x, rfl⟩ := hh
    simp [CRLFCRLF]
  have hs : (Text.splitOnce ['\r', '\n'] (Text.fromUtf8Lossy head)).isSome := by
    obtain ⟨x, rfl⟩ := hh
    exact splitOnce_crlf_isSome x [13, 10]
  obtain ⟨x, tail, rfl, hx⟩ := eq_append_cons_of_mem hm
  have ha : afterLine (x ++ 10 :: tail) = tail := afterLine_append hx
  constructor
  case mp =>
    intro h
    by_cases hl : x.getLast? = some 13
    case neg => exact absurd (h.trans ha) (utf8_otherLines_ne hx hl hs)
    case pos =>
      obtain ⟨y, rfl⟩ := List.getLast?_eq_some_iff.mp hl
      have hy : 10 ∉ y := fun h => hx (mem_append_left _ h)
      have he : y ++ [13] ++ 10 :: tail = y ++ 13 :: 10 :: tail := by simp
      rw [he] at h ha ⊢
      rw [otherLines_crlf hy, ha] at h
      refine ⟨y, by rw [ha], hy, ?_⟩
      rw [ha]
      exact (utf8_fromUtf8Lossy_iff tail).mp h
  case mpr =>
    intro ⟨y, hy, hy', hv⟩
    rw [hy, otherLines_crlf hy', ← hy]
    exact (utf8_fromUtf8Lossy_iff _).mpr hv

theorem preamble_eq_iff {line : Text} (hh : readHead [] stream = some (head, rest)) (hl : request.rewritten = some line) :
    preamble request head = line.utf8 ++ afterLine head ↔ Clean head := by
  have hp : preamble request head = line.utf8 ++ (otherLines head).utf8 := by
    rw [preamble, hl, ← utf8_append]
    rfl
  rw [hp, append_right_inj]
  exact utf8_otherLines_iff (readHead_eq_append hh)

namespace HttpClient

variable {cm : CaseMap} {set : RuleSet} {s s' : HttpClient} {owned : List Owned}

-- What is dialled and sent first comes from the head alone, whichever way the connection goes.
structure FromHead (owned : List Owned) (s : HttpClient) : Prop where
  head : s.pc = .head → s.stream = owned
  dial : ∀ request head, s.pc = .dial request head →
    ∃ rest, readHead [] (owned.map (·.1)) = some (head, rest) ∧ requestOf head = some request
  preamble : ∀ bytes, s.pc = .preamble bytes → ∃ head rest request,
    readHead [] (owned.map (·.1)) = some (head, rest) ∧ requestOf head = some request ∧ bytes = Socks.preamble request head

theorem FromHead.of_done (h : s.pc = .done ∨ s.pc = .relay) : FromHead owned s where
  head hp := by rcases h with h | h <;> cases h.symm.trans hp
  dial _ _ hp := by rcases h with h | h <;> cases h.symm.trans hp
  preamble _ hp := by rcases h with h | h <;> cases h.symm.trans hp

theorem fromHead_headStep (hp : s.stream = owned) : FromHead owned (s.headStep cm set) := by
  unfold headStep
  split
  case h_1 => exact .of_done (.inl rfl)
  case h_2 head rest hh =>
    dsimp only
    split
    case h_1 => exact .of_done (.inl rfl)
    case h_2 request hr =>
      split
      case isTrue => exact .of_done (.inl rfl)
      case isFalse =>
        rw [hp] at hh
        refine ⟨?_, ?_, ?_⟩
        · rintro ⟨⟩
        · rintro _ _ ⟨⟩
          exact ⟨rest, hh, hr⟩
        · rintro _ ⟨⟩

theorem FromHead.step {l : HttpLabel} (hi : FromHead owned s) (h : s.step cm set l = some s') : FromHead owned s' := by
  cases l
  case head =>
    simp only [HttpClient.step] at h
    split at h
    case isTrue hp => cases h; exact fromHead_headStep (hi.head hp)
    case isFalse => cases h
  case dial ok =>
    simp only [HttpClient.step] at h
    split at h
    case h_2 => cases h
    case h_1 request head hp =>
      split at h
      case isFalse => cases h; exact .of_done (.inl rfl)
      case isTrue =>
        cases h
        obtain ⟨rest, hh, hr⟩ := hi.dial request head hp
        refine ⟨?_, ?_, ?_⟩
        · rintro ⟨⟩
        · rintro _ _ ⟨⟩
        · rintro _ ⟨⟩
          exact ⟨head, rest, request, hh, hr, rfl⟩
  case preamble n =>
    simp only [HttpClient.step] at h
    split at h
    case h_2 => cases h
    case h_1 =>
      cases h
      refine .of_done ?_
      dsimp only
      split
      case isTrue => exact .inr rfl
      case isFalse => exact .inl rfl
  case relay n m =>
    simp only [HttpClient.step] at h
    obtain ⟨-, h⟩ := Option.ite_none_right_eq_some.mp h
    cases h
    refine .of_done ?_
    dsimp only
    split
    case isTrue => exact .inr rfl
    case isFalse => exact .inl rfl
  case close => cases h; exact .of_done (.inl rfl)

def fresh (owned : List Owned) : HttpClient where
  stream := owned

theorem fromHead_fresh : FromHead owned (fresh owned) where
  head _ := rfl
  dial := by rintro _ _ ⟨⟩
  preamble := by rintro _ ⟨⟩

-- In every run, over a direct connection and through the tunnel.
theorem preamble_faithful_iff (cm : CaseMap) (set : RuleSet) (owned : List Owned) {head rest : Bytes}
    {request : HttpRequestLine} {line : Text} (hh : readHead [] (owned.map (·.1)) = some (head, rest))
    (hr : requestOf head = some request) (hl : request.rewritten = some line) (ls : List HttpLabel) (s : HttpClient)
    (hx : Lts.exec (step cm set) (fresh owned) ls = some s) (bytes : Bytes) (hp : s.pc = .preamble bytes) :
    bytes = line.utf8 ++ afterLine head ↔ Clean head := by
  have hi : FromHead owned s := Lts.exec_invariant (fun _ _ _ hi hs => hi.step hs) fromHead_fresh hx
  obtain ⟨head', rest', request', hh', hr', rfl⟩ := hi.preamble bytes hp
  cases hh.symm.trans hh'
  cases hr.symm.trans hr'
  exact preamble_eq_iff hh hl

def withHeader (value : Bytes) : Bytes :=
  Text.utf8 "GET http://a/ HTTP/1.1\r\nX:".toList ++ value ++ CRLFCRLF

def getA : HttpRequestLine :=
  ⟨"GET".toList, ['a'], 80, some "GET / HTTP/1.1\r\n".toList⟩

def dialled (value : Bytes) : HttpClient where
  stream := []
  pc := .preamble (Socks.preamble getA (withHeader value))
  opened := some ⟨['a'], 80, httpAction .ascii {} getA⟩

theorem exec_withHeader {value : Bytes} (hh : readHead [] (withHeader value) = some (withHeader value, []))
    (hr : requestOf (withHeader value) = some getA) :
    Lts.exec (step .ascii {}) (fresh ((withHeader value).map (·, 0))) [.head, .dial true] = some (dialled value) := by
  have hb : httpAction .ascii {} getA ≠ .block := by decide +kernel
  have hs : (fresh ((withHeader value).map (·, 0))).headStep .ascii {} = ⟨[], .dial getA (withHeader value), none, []⟩ := by
    simp [headStep, fresh, Function.comp_def, hh, hr, hb]
  have h₁ : (fresh ((withHeader value).map (·, 0))).step .ascii {} .head =
      some ⟨[], .dial getA (withHeader value), none, []⟩ := by
    rw [← hs]
    rfl
  rw [Lts.exec_cons, h₁]
  rfl

theorem preamble_faithful_letter :
    Socks.preamble getA (withHeader [97]) = Text.utf8 "GET / HTTP/1.1\r\n".toList ++ afterLine (withHeader [97]) ↔
      Clean (withHeader [97]) := by
  have hh : readHead [] (withHeader [97]) = some (withHeader [97], []) := by decide +kernel
  have hr : requestOf (withHeader [97]) = some getA := by decide +kernel
  have hm : readHead [] (((withHeader [97]).map ((·, 0) : UInt8 → Owned)).map (·.1)) = some (withHeader [97], []) := by
    rw [map_map]
    exact (map_id _).symm ▸ hh
  exact preamble_faithful_iff .ascii {} _ hm hr rfl _ _ (exec_withHeader hh hr) _ rfl

-- A byte that is no text becomes three.
theorem not_preamble_faithful :
    ¬ ∀ s, Lts.exec (step .ascii {}) (fresh ((withHeader [0xff]).map (·, 0))) [.head, .dial true] = some s →
      ∀ bytes, s.pc = .preamble bytes → bytes = Text.utf8 "GET / HTTP/1.1\r\n".toList ++ afterLine (withHeader [0xff]) := by
  have hh : readHead [] (withHeader [0xff]) = some (withHeader [0xff], []) := by decide +kernel
  have hr : requestOf (withHeader [0xff]) = some getA := by decide +kernel
  intro h
  exact absurd (h _ (exec_withHeader hh hr) _ rfl) (by decide +kernel)

end HttpClient

end Engine.Socks
