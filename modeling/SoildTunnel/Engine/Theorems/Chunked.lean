import SoildTunnel.Engine.Theorems.ApiFront
import SoildTunnel.Rust.Crlf

-- Bodies that are carried in chunks.
namespace Engine.ApiFront

open Rust Checked List Text Option Nat

-- The first line of a chunk: its size in hexadecimal digits, blanks, and what may stand behind a semicolon.
structure SizeLine (n : Nat) where
  size : Text
  blank : Text
  ext : Option Bytes
  spelled : Text.Spells 16 size n
  blank_chars : ∀ c ∈ blank, c = ' ' ∨ c = '\t'
  ext_crlf : ∀ e ∈ ext, ¬ [13, 10] <:+: e

namespace SizeLine

variable {n width : Nat} (l : SizeLine n)

def bytes : Bytes :=
  l.size.utf8 ++ (l.blank.utf8 ++ l.ext.elim [] fun e => 59 :: e)

def text : Text :=
  l.size ++ (l.blank ++ l.ext.elim [] fun e => ';' :: Text.fromUtf8Lossy e)

theorem fromUtf8Lossy_bytes : Text.fromUtf8Lossy l.bytes = l.text := by
  rw [bytes, text, fromUtf8Lossy_utf8_append, fromUtf8Lossy_utf8_append]
  cases l.ext
  case none => rw [elim_none, elim_none, Text.fromUtf8Lossy]
  case some e =>
    have he := fromUtf8Lossy_append_ascii (x := 59) (by decide) [] e
    rw [Text.fromUtf8Lossy] at he
    rw [elim_some, elim_some]
    exact congrArg (fun t => l.size ++ (l.blank ++ t)) he

theorem not_mem_front {c : Char} (ha : c.isAlphanum = false) (hs : c ≠ ' ') (ht : c ≠ '\t') : c ∉ l.size ++ l.blank := by
  intro hm
  rcases mem_append.mp hm with hm | hm
  · rw [l.spelled.isAlphanum hm] at ha
    cases ha
  · exact (l.blank_chars c hm).elim hs ht

theorem not_pair_append {a b : Char} {w e : Text} (hw : a ∉ w) (he : ¬ [a, b] <:+: e) : ¬ [a, b] <:+: w ++ e := by
  induction w
  case nil => exact he
  case cons c w ih =>
    rw [cons_append, infix_cons_iff]
    rintro (hp | hi)
    · exact hw (by rw [(cons_prefix_cons.mp hp).1]; exact mem_cons_self)
    · exact ih (fun hm => hw (mem_cons_of_mem c hm)) hi

theorem text_crlf : ¬ ['\r', '\n'] <:+: l.text := by
  rw [text, ← append_assoc]
  refine not_pair_append (l.not_mem_front (by decide) (by decide) (by decide)) ?_
  cases he : l.ext
  case none => simp
  case some e =>
    rw [elim_some, ← singleton_append]
    refine not_pair_append (w := [';']) (by decide) ?_
    rintro ⟨p, q, h⟩
    exact l.ext_crlf e he (crlf_of_fromUtf8Lossy (p := p) (q := q) (by simp [← h]))

theorem splitOnce_text (r : Text) : Text.splitOnce ['\r', '\n'] (l.text ++ '\r' :: '\n' :: r) = some (l.text, r) :=
  splitOnce_crlf_of_no_pair l.text_crlf

theorem headD_splitOn : (l.text.splitOn ';').headD [] = l.size ++ l.blank := by
  have hf : ∀ c ∈ l.size ++ l.blank, (c == ';') = false := by
    intro c hc
    refine beq_eq_false_iff_ne.mpr ?_
    rintro rfl
    exact l.not_mem_front (by decide) (by decide) (by decide) hc
  rw [text, ← append_assoc]
  cases l.ext
  case none =>
    rw [elim_none, append_nil, List.splitOn, splitOnP_eq_singleton hf]
    rfl
  case some e =>
    rw [elim_some, List.splitOn, splitOnP_append_cons_of_forall_mem hf ';' (by decide)]
    rfl

theorem trim_front : Text.trim (l.size ++ l.blank) = l.size := by
  have hb : ∀ c ∈ l.blank, isWhitespace c.toNat := by
    intro c hc
    rcases l.blank_chars c hc with rfl | rfl <;> decide
  have hs : ∀ c ∈ l.size, isWhitespace c.toNat = false := fun c hc => isWhitespace_of_isAlphanum (l.spelled.isAlphanum hc)
  have hd : (l.size ++ l.blank).dropWhile (fun c => isWhitespace c.toNat) = l.size ++ l.blank := by
    obtain ⟨c, t, he⟩ := exists_cons_of_ne_nil l.spelled.ne_nil
    have hc := hs c (he ▸ mem_cons_self)
    rw [he, cons_append, dropWhile_cons_of_neg (by rw [hc]; decide)]
  rw [Text.trim, Delimited.trim, hd, Delimited.rdropWhile_append_of_forall hb, rdropWhile_eq_self_iff]
  intro hl
  rw [hs _ (getLast_mem hl)]
  decide

theorem chunkSize_text (hn : n < 2 ^ width) : chunkSize width l.text = (some n).filter (· ≠ 0) := by
  rw [chunkSize, l.headD_splitOn, l.trim_front, fromStrRadix_of_spells l.spelled hn]

end SizeLine

structure Chunk where
  data : Bytes
  data_ne_nil : data ≠ []
  line : SizeLine data.length

def Chunk.bytes (c : Chunk) : Bytes :=
  c.line.bytes ++ 13 :: 10 :: (c.data ++ [13, 10])

-- Chunks, with the last one behind them and what may follow it.
structure Payload where
  chunks : List Chunk
  last : SizeLine 0
  trailer : Bytes

namespace Payload

def bytes (p : Payload) : Bytes :=
  p.chunks.flatMap Chunk.bytes ++ (p.last.bytes ++ 13 :: 10 :: p.trailer)

def text (p : Payload) : Text :=
  Text.fromUtf8Lossy p.bytes

def data (p : Payload) : Bytes :=
  p.chunks.flatMap Chunk.data

-- Every chunk is a text on its own.
def Whole (p : Payload) : Prop :=
  ∀ c ∈ p.chunks, ∃ t : Text, c.data = t.utf8

variable {width rounds : Nat} {last : SizeLine 0} {trailer : Bytes} {c : Chunk} {cs : List Chunk} {x out t b : Text}

theorem text_nil : text ⟨[], last, trailer⟩ = last.text ++ '\r' :: '\n' :: Text.fromUtf8Lossy trailer := by
  rw [text, bytes, flatMap_nil, nil_append, fromUtf8Lossy_crlf, last.fromUtf8Lossy_bytes]

theorem text_cons : text ⟨c :: cs, last, trailer⟩ =
      c.line.text ++ '\r' :: '\n' :: (Text.fromUtf8Lossy c.data ++ '\r' :: '\n' :: text ⟨cs, last, trailer⟩) := by
  rw [text, bytes, flatMap_cons, Chunk.bytes, append_assoc, append_assoc, cons_append,
    cons_append, fromUtf8Lossy_crlf, c.line.fromUtf8Lossy_bytes, append_assoc, cons_append,
    cons_append, nil_append, fromUtf8Lossy_crlf]
  rfl

theorem isPrefix_of_dechunkLoop {body : Text} {cursor : Nat} (h : dechunkLoop width body rounds cursor out = .ok t) :
    out <+: t := by
  induction rounds generalizing cursor out
  case zero => cases h
  case succ rounds ih =>
    rcases dechunkLoop_ok_iff.mp h with ⟨_, rfl⟩ | ⟨piece, next, _, h⟩
    · exact prefix_rfl
    · exact (prefix_append out piece).trans (ih h)

theorem dechunkLoop_last (fits : (x ++ text ⟨[], last, trailer⟩).utf8.length < 2 ^ (width - 1)) :
    dechunkLoop width (x ++ text ⟨[], last, trailer⟩) (rounds + 1) x.utf8.length out = .ok out := by
  have hs := last.splitOnce_text (Text.fromUtf8Lossy trailer)
  rw [← text_nil] at hs
  refine dechunkLoop_ok_iff.mpr (.inl ⟨(turn_line fits hs).mpr ?_, rfl⟩)
  rw [last.chunkSize_text (Nat.two_pow_pos width)]
  rfl

theorem splitOnce_cons (c : Chunk) (cs : List Chunk) (last : SizeLine 0) (trailer : Bytes) :
    Text.splitOnce ['\r', '\n'] (text ⟨c :: cs, last, trailer⟩) =
      some (c.line.text, Text.fromUtf8Lossy c.data ++ '\r' :: '\n' :: text ⟨cs, last, trailer⟩) := by
  rw [text_cons]
  exact c.line.splitOnce_text _

theorem chunkSize_line {n : Nat} (hn : n < 2 ^ (width - 1)) (hd : c.data.length ≤ n) :
    chunkSize width c.line.text = some c.data.length := by
  have hw : 2 ^ (width - 1) ≤ 2 ^ width := Nat.pow_le_pow_right (by decide) (Nat.sub_le width 1)
  have hp := length_pos_of_ne_nil c.data_ne_nil
  rw [c.line.chunkSize_text (by omega), filter_some, if_pos (decide_eq_true (by omega))]

theorem dechunkLoop_whole (fits : (x ++ text ⟨c :: cs, last, trailer⟩).utf8.length < 2 ^ (width - 1))
    (hd : c.data = t.utf8) (rounds : Nat) (out : Text) :
    ∃ y : Text, x ++ text ⟨c :: cs, last, trailer⟩ = y ++ text ⟨cs, last, trailer⟩ ∧
      ∀ r, dechunkLoop width (x ++ text ⟨c :: cs, last, trailer⟩) (rounds + 1) x.utf8.length out = .ok r ↔
        dechunkLoop width (x ++ text ⟨c :: cs, last, trailer⟩) rounds y.utf8.length (out ++ t) = .ok r := by
  have hf : Text.fromUtf8Lossy c.data = t := by rw [hd, fromUtf8Lossy_utf8]
  have hn : c.data.length = t.utf8.length := by rw [hd]
  have hs := splitOnce_cons c cs last trailer
  rw [hf] at hs
  obtain ⟨_, hw, hl⟩ := line_bounds fits hs
  rw [utf8_append t, length_append] at hl
  have hc := (chunkSize_line (c := c) fits (by omega)).trans (congrArg some hn)
  have ht := (turn_chunk fits hs hc).mpr ⟨by omega, .inr ⟨t, _, splitAt_left t _, rfl⟩⟩
  refine ⟨x ++ (c.line.text ++ '\r' :: '\n' :: (t ++ ['\r', '\n'])), ?_, fun r => ?_⟩
  · rw [text_cons, hf]
    simp
  · have hy : Text.utf8 (x ++ (c.line.text ++ '\r' :: '\n' :: (t ++ ['\r', '\n']))) =
        x.utf8 ++ (c.line.text.utf8 ++ 13 :: 10 :: (t.utf8 ++ [13, 10])) := by
      rw [utf8_append, utf8_append, utf8_cons, utf8_cons, utf8_append]
      rfl
    have hy' : (Text.utf8 (x ++ (c.line.text ++ '\r' :: '\n' :: (t ++ ['\r', '\n'])))).length =
        x.utf8.length + c.line.text.utf8.length + 2 + t.utf8.length + 2 := by
      simp [hy]
      omega
    rw [dechunkLoop_ok_iff, ht, hy']
    simp

theorem dechunkLoop_broken (fits : (x ++ text ⟨c :: cs, last, trailer⟩).utf8.length < 2 ^ (width - 1)) {ch : Char}
    {q q' : Bytes} (hd : c.data = t.utf8 ++ q) (he : String.utf8EncodeChar ch = q ++ q') (hq : q ≠ []) (hq' : q' ≠ [])
    {r : Text}
    (h : dechunkLoop width (x ++ text ⟨c :: cs, last, trailer⟩) (rounds + 1) x.utf8.length out = .ok r) :
    q.length = 3 ∧ out ++ (t ++ [Text.replacement]) <+: r := by
  have hf : Text.fromUtf8Lossy c.data = t ++ [Text.replacement] := by
    rw [hd, fromUtf8Lossy_utf8_append, fromUtf8Lossy_part he hq hq']
  have hn : c.data.length = t.utf8.length + q.length := by rw [hd, length_append]
  have hc4 : (String.utf8EncodeChar ch).length ≤ 4 := by
    rw [String.length_utf8EncodeChar]
    exact ch.utf8Size_le_four
  have hl4 := congrArg List.length he
  have hp := length_pos_of_ne_nil hq
  have hp' := length_pos_of_ne_nil hq'
  rw [length_append] at hl4
  have hs := splitOnce_cons c cs last trailer
  rw [hf, append_assoc, singleton_append] at hs
  obtain ⟨_, hw, hl⟩ := line_bounds fits hs
  have hr : (String.utf8EncodeChar Text.replacement).length = 3 := rfl
  rw [utf8_append t, utf8_cons, length_append, length_append, hr] at hl
  have hc := (chunkSize_line (c := c) fits (by omega)).trans (congrArg some hn)
  rcases dechunkLoop_ok_iff.mp h with ⟨ht, _⟩ | ⟨piece, next, ht, h⟩
  · obtain ⟨_, ⟨hlt, _⟩ | ⟨_, _, _, he⟩⟩ := (turn_chunk fits hs hc).mp ht
    · rw [utf8_append t, utf8_cons, length_append, length_append, hr] at hlt
      omega
    · cases he
  · obtain ⟨_, ⟨_, he⟩ | ⟨piece', after, hp, he⟩⟩ := (turn_chunk fits hs hc).mp ht
    · cases he
    · cases he
      obtain ⟨hk, rfl⟩ := splitAt_within hp (length_pos_of_ne_nil hq) (by omega)
      exact ⟨hk, isPrefix_of_dechunkLoop h⟩

theorem not_whole_of_part {ch : Char} {q q' : Bytes} (he : String.utf8EncodeChar ch = q ++ q') (hq : q ≠ []) (hq' : q' ≠ [])
    {t u : Text} : t.utf8 ++ q ≠ u.utf8 := by
  intro h
  have hu := congrArg Text.fromUtf8Lossy h
  rw [fromUtf8Lossy_utf8, fromUtf8Lossy_utf8_append, fromUtf8Lossy_part he hq hq'] at hu
  rw [← hu, utf8_append, utf8_cons, utf8_nil, append_nil] at h
  have hc := congrArg Text.fromUtf8Lossy he
  have hn := fromUtf8Lossy_append (encoded_utf8EncodeChar ch) []
  rw [append_nil, Text.fromUtf8Lossy] at hn
  rw [hn, append_cancel_left h, fromUtf8Lossy_append (encoded_utf8EncodeChar _)] at hc
  exact fromUtf8Lossy_ne_nil hq' (List.cons.inj hc).2.symm

-- Chunks that are texts on their own are put together to the body, and no others are.
theorem dechunkLoop_iff (fits : (x ++ text ⟨cs, last, trailer⟩).utf8.length < 2 ^ (width - 1))
    (hr : cs.length < rounds) (hb : data ⟨cs, last, trailer⟩ = b.utf8) :
    dechunkLoop width (x ++ text ⟨cs, last, trailer⟩) rounds x.utf8.length out = .ok (out ++ b) ↔
      Whole ⟨cs, last, trailer⟩ := by
  induction cs generalizing x rounds out b
  case nil =>
    obtain ⟨rounds, rfl⟩ := exists_eq_succ_of_ne_zero (ne_zero_of_lt hr)
    have hn : b = [] := utf8_eq_nil_iff.mp hb.symm
    rw [succ_eq_add_one, dechunkLoop_last fits, hn, append_nil]
    exact iff_of_true rfl fun c hc => absurd hc not_mem_nil
  case cons c cs ih =>
    obtain ⟨rounds, rfl⟩ := exists_eq_succ_of_ne_zero (ne_zero_of_lt hr)
    rw [data, flatMap_cons] at hb
    rcases utf8_eq_append hb.symm with ⟨t, b, rfl, hd, hb⟩ | ⟨t, ch, b, q, q', rfl, hd, he, hq, hq'⟩
    · obtain ⟨y, hy, hl⟩ := dechunkLoop_whole fits hd rounds out
      rw [hy] at fits
      rw [succ_eq_add_one, hl, hy, ← append_assoc, ih fits (lt_of_succ_lt_succ hr) hb]
      exact ⟨fun h => forall_mem_cons.mpr ⟨⟨t, hd⟩, h⟩, fun h => (forall_mem_cons.mp h).2⟩
    · refine iff_of_false (fun h => ?_) fun h => ?_
      · obtain ⟨hl, hp⟩ := dechunkLoop_broken fits hd he hq hq' h
        have hc : Text.replacement = ch := by
          rw [prefix_append_right_inj, prefix_append_right_inj] at hp
          exact (cons_prefix_cons.mp hp).1
        have hl' := congrArg List.length he
        rw [← hc, length_append, hl] at hl'
        exact hq' (eq_nil_of_length_eq_zero (add_left_cancel hl'.symm))
      · obtain ⟨u, hu⟩ := h c mem_cons_self
        exact not_whole_of_part he hq hq' (hd.symm.trans hu)

theorem length_chunks_le : cs.length ≤ (text ⟨cs, last, trailer⟩).utf8.length := by
  induction cs
  case nil => exact zero_le _
  case cons c cs ih =>
    rw [text_cons, utf8_append, utf8_cons, utf8_cons, utf8_append, utf8_cons, utf8_cons]
    simp only [length_append, length_cons]
    have hn : (String.utf8EncodeChar '\n').length = 1 := rfl
    omega

theorem dechunk_text_iff (p : Payload) (fits : p.text.utf8.length < 2 ^ (width - 1)) (hb : p.data = b.utf8) :
    dechunk width p.text = .ok b ↔ p.Whole :=
  dechunkLoop_iff (x := []) fits (lt_succ_of_le length_chunks_le) hb

end Payload

-- An answer that carries a body in chunks. Its lines may have any bytes in them but a line feed.
structure Message where
  version : Text
  status : UInt16
  reason : Option Bytes
  before : List Bytes
  name : Text
  value : Text
  after : List Bytes
  payload : Payload
  body : Text
  version_ne_nil : version ≠ []
  version_word : ∀ c ∈ version, isWhitespace c.toNat = false
  reason_line : ∀ r ∈ reason, 10 ∉ r
  lines : ∀ l ∈ before ++ after, l ≠ [] ∧ 10 ∉ l
  name_eq : name.map Char.toLower = "transfer-encoding".toList
  value_line : '\n' ∉ value
  ascii : ∀ c ∈ name ++ ':' :: value, c.toNat < 128
  coding : "chunked".toList <:+: value.map Char.toLower
  carries : payload.data = body.utf8

namespace Message

variable (m : Message)

def statusLine : Bytes :=
  m.version.utf8 ++ 32 :: (Text.utf8 (Nat.toDigits 10 m.status.toNat) ++ m.reason.elim [] fun r => 32 :: r)

def field : Text :=
  m.name ++ ':' :: m.value

def bytes : Bytes :=
  m.statusLine ++
    ((m.before ++ m.field.utf8 :: m.after).flatMap (fun l => 13 :: 10 :: l) ++ 13 :: 10 :: 13 :: 10 :: m.payload.bytes)

def statusText : Text :=
  m.version ++ ' ' :: (Nat.toDigits 10 m.status.toNat ++ m.reason.elim [] fun r => ' ' :: Text.fromUtf8Lossy r)

theorem fromUtf8Lossy_space (x r : Bytes) :
    Text.fromUtf8Lossy (x ++ 32 :: r) = Text.fromUtf8Lossy x ++ ' ' :: Text.fromUtf8Lossy r :=
  fromUtf8Lossy_append_ascii (by decide) x r

theorem fromUtf8Lossy_statusLine : Text.fromUtf8Lossy m.statusLine = m.statusText := by
  rw [statusLine, statusText, fromUtf8Lossy_space, fromUtf8Lossy_utf8]
  cases m.reason
  case none => rw [elim_none, elim_none, append_nil, append_nil, fromUtf8Lossy_utf8]
  case some r => rw [elim_some, elim_some, fromUtf8Lossy_space, fromUtf8Lossy_utf8]

theorem digit_word {c : Char} (h : c ∈ Nat.toDigits 10 m.status.toNat) : isWhitespace c.toNat = false :=
  isWhitespace_of_isAlphanum (isAlphanum_of_isDigit (isDigit_of_mem_toDigits _ h))

theorem statusText_line : '\n' ∉ m.statusText := by
  rw [statusText, mem_append, mem_cons, mem_append]
  rintro (h | h | h | h)
  · exact absurd (m.version_word _ h) (by decide)
  · exact absurd h (by decide)
  · exact absurd (m.digit_word h) (by decide)
  · cases hr : m.reason
    case none =>
      rw [hr] at h
      cases h
    case some r =>
      rw [hr, elim_some, mem_cons] at h
      rcases h with h | h
      · exact absurd h (by decide)
      · exact lf_not_mem_fromUtf8Lossy (m.reason_line r hr) h

theorem statusOf_statusText : statusOf m.statusText = some m.status := by
  have hd : Text.parseU16 (Nat.toDigits 10 m.status.toNat) = some m.status := by
    rw [parseU16_toDigits m.status.toNat_lt, UInt16.ofNat_toNat]
  have hs : ∃ ws, Text.splitWhitespace m.statusText = m.version :: Nat.toDigits 10 m.status.toNat :: ws := by
    rw [Text.splitWhitespace, statusText, splitOnP_append_cons_of_forall_mem m.version_word ' ' (by decide)]
    cases m.reason
    case none =>
      rw [elim_none, append_nil, splitOnP_eq_singleton fun c hc => m.digit_word hc]
      exact ⟨[], by simp [m.version_ne_nil]⟩
    case some r =>
      rw [elim_some, splitOnP_append_cons_of_forall_mem (fun c hc => m.digit_word hc) ' ' (by decide)]
      exact ⟨_, by rw [filter_cons_of_pos (by simp [m.version_ne_nil]),
        filter_cons_of_pos (by simp)]⟩
  obtain ⟨ws, hs⟩ := hs
  rw [statusOf, hs]
  exact hd

def lineTexts : List Text :=
  m.before.map Text.fromUtf8Lossy ++ m.field :: m.after.map Text.fromUtf8Lossy

theorem lineTexts_lines : ∀ l ∈ m.lineTexts, l ≠ [] ∧ '\n' ∉ l := by
  have hb {l : Bytes} (h : l ∈ m.before ++ m.after) : Text.fromUtf8Lossy l ≠ [] ∧ '\n' ∉ Text.fromUtf8Lossy l :=
    ⟨fromUtf8Lossy_ne_nil (m.lines l h).1, lf_not_mem_fromUtf8Lossy (m.lines l h).2⟩
  intro l hl
  rw [lineTexts, mem_append, mem_cons] at hl
  rcases hl with hl | rfl | hl
  · obtain ⟨l, hm, rfl⟩ := mem_map.mp hl
    exact hb (mem_append_left _ hm)
  · refine ⟨by simp [field], ?_⟩
    rw [field, mem_append, mem_cons]
    rintro (h | h | h)
    · have hm : Char.toLower '\n' ∈ m.name.map Char.toLower := mem_map_of_mem h
      rw [m.name_eq] at hm
      exact absurd hm (by decide)
    · exact absurd h (by decide)
    · exact m.value_line h
  · obtain ⟨l, hm, rfl⟩ := mem_map.mp hl
    exact hb (mem_append_right _ hm)

theorem isChunked_field (cm : CaseMap) : isChunked cm m.field := by
  have hl : cm.toLowercase m.field = "transfer-encoding:".toList ++ m.value.map Char.toLower := by
    have hn : "transfer-encoding:".toList = "transfer-encoding".toList ++ [Char.toLower ':'] := by decide
    rw [field, cm.toLowercase_ascii m.ascii, map_append, m.name_eq, map_cons, hn, append_assoc,
      singleton_append]
  obtain ⟨a, b, hc⟩ := m.coding
  rw [isChunked, hl, Bool.and_eq_true, isPrefixOf_iff_prefix]
  refine ⟨prefix_append _ _, ?_⟩
  have hs := splitOnce_isSome "chunked".toList ("transfer-encoding:".toList ++ a) b
  rwa [append_assoc, append_assoc, ← append_assoc a, hc] at hs

theorem splitOnce_text : Text.splitOnce ['\r', '\n', '\r', '\n'] (Text.fromUtf8Lossy m.bytes) =
      some (m.statusText ++ Text.following m.lineTexts, m.payload.text) := by
  have hf : Text.fromUtf8Lossy m.field.utf8 = m.field := fromUtf8Lossy_utf8 _
  have hm : (m.before ++ m.field.utf8 :: m.after).map Text.fromUtf8Lossy = m.lineTexts := by
    rw [lineTexts, map_append, map_cons, hf]
  rw [bytes, fromUtf8Lossy_head, m.fromUtf8Lossy_statusLine, hm]
  exact splitOnce_head m.statusText_line m.lineTexts_lines

theorem parseResponse_bytes (width : Nat) (cm : CaseMap) :
    parseResponse width cm m.bytes = (dechunk width m.payload.text).map fun body => .ok (m.status.toNat, body) := by
  have hl : Text.splitCrlf (m.statusText ++ Text.following m.lineTexts) = m.statusText :: m.lineTexts :=
    splitCrlf_head m.statusText_line fun l h => (m.lineTexts_lines l h).2
  have hc : m.lineTexts.any (isChunked cm) :=
    any_eq_true.mpr ⟨m.field, mem_append_right _ mem_cons_self, m.isChunked_field cm⟩
  rw [parseResponse, m.splitOnce_text]
  simp only [hl, headD_cons, m.statusOf_statusText, tail_cons, if_pos hc]

end Message

-- The text that is made of it fits in the machine's memory.
structure Delivery (width : Nat) extends Message where
  fits : (Text.fromUtf8Lossy toMessage.bytes).utf8.length < 2 ^ (width - 1)

theorem map_ok_iff {x : Except Fault Text} {status : Nat} {b : Text} :
    x.map (fun body => (.ok (status, body) : Except Account.Failure (Nat × Text))) = .ok (.ok (status, b)) ↔ x = .ok b := by
  cases x
  case error e =>
    refine iff_of_false (fun h => ?_) fun h => ?_
    · cases h
    · cases h
  case ok t =>
    constructor
    case mp =>
      intro h
      cases h
      rfl
    case mpr =>
      intro h
      cases h
      rfl

theorem Delivery.fits_payload {width : Nat} (d : Delivery width) : d.payload.text.utf8.length < 2 ^ (width - 1) :=
  Answer.fits_body ⟨d.bytes, d.fits⟩ d.splitOnce_text

-- A body comes through if every chunk is a text on its own, and in no other case.
theorem parseResponse_delivery_iff {width : Nat} (cm : CaseMap) (d : Delivery width) :
    parseResponse width cm d.bytes = .ok (.ok (d.status.toNat, d.body)) ↔ d.payload.Whole := by
  rw [d.parseResponse_bytes, map_ok_iff]
  exact d.payload.dechunk_text_iff d.fits_payload d.carries

theorem spells_one : Text.Spells 16 ['1'] 1 := ⟨rfl, rfl⟩

def oneByte (b : UInt8) : Chunk where
  data := [b]
  data_ne_nil := cons_ne_nil b []
  line := ⟨['1'], [], none, spells_one, nofun, nofun⟩

theorem spells_zero : Text.Spells 16 ['0'] 0 := ⟨rfl, rfl⟩

def lastLine : SizeLine 0 :=
  ⟨['0'], [], none, spells_zero, nofun, nofun⟩

theorem version_word : ∀ c ∈ "HTTP/1.1".toList, isWhitespace c.toNat = false := by
  have h : ("HTTP/1.1".toList.all fun c => !isWhitespace c.toNat) = true := by decide
  intro c hc
  exact Bool.eq_false_of_not_eq_true' (all_eq_true.mp h c hc)

theorem field_ascii : ∀ c ∈ "Transfer-Encoding".toList ++ ':' :: " chunked".toList, c.toNat < 128 := by
  have h : (("Transfer-Encoding".toList ++ ':' :: " chunked".toList).all (·.toNat < 128)) = true := by decide
  intro c hc
  exact of_decide_eq_true (all_eq_true.mp h c hc)

-- A character of two bytes, with a chunk for each of them.
def splitCharacter : Message where
  version := "HTTP/1.1".toList
  status := 200
  reason := some [79, 75]
  before := []
  name := "Transfer-Encoding".toList
  value := " chunked".toList
  after := []
  payload := ⟨[oneByte 0xc3, oneByte 0xa9], lastLine, [13, 10]⟩
  body := ['é']
  version_ne_nil := by decide
  version_word := version_word
  reason_line := by decide
  lines := by decide
  name_eq := by decide
  value_line := by decide
  ascii := field_ascii
  coding := by decide
  carries := by decide

theorem fits_splitCharacter : (Text.fromUtf8Lossy splitCharacter.bytes).utf8.length < 2 ^ 63 :=
  lt_of_le_of_lt (length_utf8_fromUtf8Lossy_le _) (by decide +kernel)

theorem not_parseResponse_splitCharacter :
    parseResponse 64 .ascii splitCharacter.bytes ≠ .ok (.ok (splitCharacter.status.toNat, splitCharacter.body)) := by
  let d : Delivery 64 := ⟨splitCharacter, fits_splitCharacter⟩
  rw [splitCharacter.parseResponse_bytes, ne_eq, map_ok_iff, d.payload.dechunk_text_iff d.fits_payload d.carries]
  intro h
  obtain ⟨t, ht⟩ := h (oneByte 0xc3) mem_cons_self
  have he : String.utf8EncodeChar 'é' = [0xc3] ++ [0xa9] := rfl
  exact Payload.not_whole_of_part (t := []) he (by decide) (by decide) ht

end Engine.ApiFront
