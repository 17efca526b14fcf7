import SoildTunnel.Engine.ApiFront

namespace Engine.ApiFront

open Rust Checked List Nat Text Option

section Rules

variable {α β : Type} {x : Except Fault α} {f : α → Except Fault β}

theorem bind_ok_iff {b : β} : (x >>= f) = .ok b ↔ ∃ a, x = .ok a ∧ f a = .ok b := by
  cases x
  case error e =>
    refine iff_of_false (fun h => ?_) (fun h => ?_)
    · cases h
    · obtain ⟨a, ha, _⟩ := h
      cases ha
  case ok a =>
    constructor
    case mp => exact fun h => ⟨a, rfl, h⟩
    case mpr =>
      rintro ⟨a', ha, h⟩
      cases ha
      exact h

theorem sliced_eq_ok_iff {part : Option Text} {t : Text} : sliced part = .ok t ↔ part = some t := by
  cases part <;> simp [sliced]

theorem sum_eq_ok_iff {width a b n : Nat} : sum width a b = .ok n ↔ a + b < 2 ^ width ∧ n = a + b := by
  unfold sum
  split
  case isTrue h => simp [h, eq_comm]
  case isFalse h => simp [h]

end Rules

section Dechunk

variable {width : Nat} {body : Text}

-- The first line of a chunk at a position: where its data starts, and the size it says.
def Announces (width : Nat) (body : Text) (cursor start size : Nat) : Prop :=
  ∃ before rest line r, body = before ++ rest ∧ before.utf8.length = cursor ∧
    Text.splitOnce ['\r', '\n'] rest = some (line, r) ∧ chunkSize width line = some size ∧
    start = cursor + line.utf8.length + 2

inductive Reaches (width : Nat) (body : Text) : Nat → Prop
  | first : Reaches width body 0
  | next {cursor start size : Nat} : Reaches width body cursor → Announces width body cursor start size →
    start + size ≤ body.utf8.length → Reaches width body (start + size + 2)

-- The end of a chunk's data is a number of the machine. If it lies in the body, it lies between two characters,
-- and so does the place behind the line end that follows, unless the body ends before it.
structure Sound (width : Nat) (body : Text) (stop : Nat) : Prop where
  lt : stop < 2 ^ width
  boundary : stop ≤ body.utf8.length → body.Boundary stop
  next : stop + 2 < body.utf8.length → body.Boundary (stop + 2)

def Framed (width : Nat) (body : Text) : Prop :=
  ∀ cursor start size, Reaches width body cursor → Announces width body cursor start size →
    Sound width body (start + size)

theorem lt_pow (fits : body.utf8.length < 2 ^ (width - 1)) (hp : 0 < body.utf8.length) :
    body.utf8.length + 2 < 2 ^ width := by
  cases width
  case zero =>
    rw [Nat.zero_sub, Nat.pow_zero] at fits
    omega
  case succ w =>
    rw [Nat.add_sub_cancel] at fits
    rw [pow_succ]
    omega

variable {rounds cursor : Nat} {out t before rest line r : Text}

theorem length_line (h : Text.splitOnce ['\r', '\n'] rest = some (line, r)) :
    rest.utf8.length = line.utf8.length + 2 + r.utf8.length := by
  rw [splitOnce_eq_some h, utf8_append, utf8_append, length_append, length_append]
  rfl

theorem turn_done (h : body.utf8.length ≤ cursor) : turn width body cursor = .ok none := by
  rw [turn, if_neg (not_lt.mpr h)]
  rfl

variable {o : Option (Text × Nat)}

theorem turn_boundary (h : cursor < body.utf8.length) (ht : turn width body cursor = .ok o) :
    body.Boundary cursor := by
  rw [turn, if_pos h] at ht
  obtain ⟨rest, hr, _⟩ := bind_ok_iff.mp ht
  obtain ⟨p, hp, _⟩ := map_eq_some_iff.mp (sliced_eq_ok_iff.mp hr)
  exact splitAt_isSome_iff.mp (by rw [hp]; rfl)

theorem lt_length (hn : rest ≠ []) : before.utf8.length < (before ++ rest).utf8.length := by
  have hp := length_pos_of_ne_nil fun h => hn (utf8_eq_nil_iff.mp h)
  rw [utf8_append, length_append]
  omega

theorem turn_unended (hn : rest ≠ []) (h : Text.splitOnce ['\r', '\n'] rest = none) :
    turn width (before ++ rest) before.utf8.length = .ok none := by
  rw [turn, if_pos (lt_length hn), sliceFrom_append, bind_ok_iff]
  refine ⟨rest, rfl, ?_⟩
  simp only [h]
  rfl

theorem ne_nil_of_splitOnce (h : Text.splitOnce ['\r', '\n'] rest = some (line, r)) : rest ≠ [] := by
  rintro rfl
  cases h

variable {size : Nat}

section Line

variable (fits : (before ++ rest).utf8.length < 2 ^ (width - 1)) (h : Text.splitOnce ['\r', '\n'] rest = some (line, r))

include h

theorem slice_line :
    Text.slice before.utf8.length (before.utf8.length + line.utf8.length) (before ++ rest) = some line := by
  rw [splitOnce_eq_some h, append_assoc]
  exact slice_append before line _

theorem boundary_line :
    (before ++ rest).Boundary (before.utf8.length + line.utf8.length + 2 + size) ↔ r.Boundary size := by
  have hb := boundary_append_iff (n := size) (x := before ++ (line ++ ['\r', '\n'])) (r := r)
  rw [append_assoc, ← splitOnce_eq_some h] at hb
  rw [← hb, utf8_append, utf8_append, length_append, length_append, ← add_assoc]
  rfl

include fits

theorem line_bounds :
    before.utf8.length + line.utf8.length + 2 < 2 ^ width ∧ (before ++ rest).utf8.length + 2 < 2 ^ width ∧
      (before ++ rest).utf8.length = before.utf8.length + line.utf8.length + 2 + r.utf8.length := by
  have hlt : before.utf8.length < (before ++ rest).utf8.length := lt_length (ne_nil_of_splitOnce h)
  have hl := length_line h
  have hw := lt_pow fits (zero_lt_of_lt hlt)
  rw [utf8_append, length_append] at hw ⊢
  omega

theorem turn_line : turn width (before ++ rest) before.utf8.length = .ok o ↔
      (chunkSize width line).elim (.ok none) (takeChunk width (before ++ rest) (before.utf8.length + line.utf8.length)) =
        .ok o := by
  obtain ⟨hw, _⟩ := line_bounds fits h
  have hs : sum width before.utf8.length line.utf8.length = .ok (before.utf8.length + line.utf8.length) :=
    sum_eq_ok_iff.mpr ⟨by omega, rfl⟩
  rw [turn, if_pos (lt_length (ne_nil_of_splitOnce h)), sliceFrom_append]
  simp only [bind_ok_iff, sliced_eq_ok_iff, some_inj, exists_eq_left', h, hs, Except.ok.injEq, slice_line h]
  cases chunkSize width line <;> rfl

theorem takeChunk_line : takeChunk width (before ++ rest) (before.utf8.length + line.utf8.length) size = .ok o ↔
      before.utf8.length + line.utf8.length + 2 + size < 2 ^ width ∧
        (r.utf8.length < size ∧ o = none ∨
          ∃ piece after, Text.splitAt size r = some (piece, after) ∧
            o = some (piece, before.utf8.length + line.utf8.length + 2 + size + 2)) := by
  obtain ⟨hw, hw', hl⟩ := line_bounds fits h
  have hs : sum width (before.utf8.length + line.utf8.length) 2 = .ok (before.utf8.length + line.utf8.length + 2) :=
    sum_eq_ok_iff.mpr ⟨hw, rfl⟩
  have hb : Text.slice (before.utf8.length + line.utf8.length + 2) (before.utf8.length + line.utf8.length + 2 + size)
      (before ++ rest) = (Text.splitAt size r).map Prod.fst := by
    have hr := slice_right (n := size) (before ++ (line ++ ['\r', '\n'])) r
    rw [append_assoc, ← splitOnce_eq_some h] at hr
    rw [← hr, utf8_append, utf8_append, length_append, length_append, ← add_assoc]
    rfl
  rw [takeChunk]
  simp only [bind_ok_iff, sum_eq_ok_iff, hw, true_and, and_assoc, exists_and_left, exists_eq_left]
  refine and_congr_right fun hlt => ?_
  split
  case isTrue hg =>
    have hn : Text.splitAt size r = none := by
      rw [← not_isSome_iff_eq_none, splitAt_isSome_iff]
      intro hb
      have := hb.le
      omega
    have hg' : r.utf8.length < size := by omega
    simp [hn, hg', pure, Except.pure, eq_comm]
  case isFalse hg =>
    have hg' : ¬ r.utf8.length < size := by omega
    have hn : before.utf8.length + line.utf8.length + 2 + size + 2 < 2 ^ width := by omega
    simp only [bind_ok_iff, sliced_eq_ok_iff, hb, sum_eq_ok_iff, hn, true_and, exists_eq_left, hg', false_and, false_or,
      map_eq_some_iff, Prod.exists, exists_and_right, exists_eq_right]
    exact exists_congr fun piece => and_congr_right fun _ =>
      ⟨fun ho => (Except.ok.inj ho).symm, fun ho => congrArg Except.ok ho.symm⟩

theorem turn_chunk (hc : chunkSize width line = some size) : turn width (before ++ rest) before.utf8.length = .ok o ↔
      before.utf8.length + line.utf8.length + 2 + size < 2 ^ width ∧
        (r.utf8.length < size ∧ o = none ∨
          ∃ piece after, Text.splitAt size r = some (piece, after) ∧
            o = some (piece, before.utf8.length + line.utf8.length + 2 + size + 2)) := by
  rw [turn_line fits h, hc, elim_some, takeChunk_line fits h]

end Line

theorem dechunkLoop_ok_iff : dechunkLoop width body (rounds + 1) cursor out = .ok t ↔
      turn width body cursor = .ok none ∧ t = out ∨
      ∃ piece next, turn width body cursor = .ok (some (piece, next)) ∧
        dechunkLoop width body rounds next (out ++ piece) = .ok t := by
  rw [dechunkLoop, bind_ok_iff]
  constructor
  case mp =>
    rintro ⟨o, ho, h⟩
    cases o
    case none => exact .inl ⟨ho, (Except.ok.inj h).symm⟩
    case some p => exact .inr ⟨p.1, p.2, ho, h⟩
  case mpr =>
    rintro (⟨ho, rfl⟩ | ⟨piece, next, ho, h⟩)
    · exact ⟨none, ho, rfl⟩
    · exact ⟨some (piece, next), ho, h⟩

variable (fits : body.utf8.length < 2 ^ (width - 1))

include fits

-- Where the loop comes to an end, the chunk at its position is sound, and the loop comes to an end behind it too.
theorem sound_of_dechunkLoop {start : Nat} (hd : dechunkLoop width body rounds cursor out = .ok t)
    (ha : Announces width body cursor start size) :
    Sound width body (start + size) ∧
      (start + size ≤ body.utf8.length → ∃ rounds out, dechunkLoop width body rounds (start + size + 2) out = .ok t) := by
  obtain ⟨before, rest, line, r, rfl, rfl, hs, hc, rfl⟩ := ha
  obtain ⟨_, _, hl⟩ := line_bounds fits hs
  cases rounds
  case zero => cases hd
  case succ rounds =>
    rw [dechunkLoop_ok_iff, turn_chunk fits hs hc] at hd
    rcases hd with ⟨⟨hw, hb⟩, _⟩ | ⟨piece, next, ht, hd⟩
    · rcases hb with ⟨hb, _⟩ | ⟨_, _, _, he⟩
      · exact ⟨⟨hw, fun _ => by omega, fun _ => by omega⟩, fun _ => by omega⟩
      · cases he
    · obtain ⟨hw, ⟨_, he⟩ | ⟨piece', after, hp, he⟩⟩ := (turn_chunk fits hs hc).mp ht
      · cases he
      · cases he
        have hb : r.Boundary size := splitAt_isSome_iff.mp (by rw [hp]; rfl)
        refine ⟨⟨hw, fun _ => (boundary_line hs).mpr hb, fun hn => ?_⟩, fun _ => ⟨rounds, _, hd⟩⟩
        cases rounds
        case zero => cases hd
        case succ rounds =>
          rcases dechunkLoop_ok_iff.mp hd with ⟨ht, _⟩ | ⟨_, _, ht, _⟩
          · exact turn_boundary hn ht
          · exact turn_boundary hn ht

theorem framed_of_dechunk (h : dechunk width body = .ok t) : Framed width body := by
  have hr {cursor : Nat} (hr : Reaches width body cursor) :
      ∃ rounds out, dechunkLoop width body rounds cursor out = .ok t := by
    induction hr
    case first => exact ⟨_, _, h⟩
    case next ha hl ih =>
      obtain ⟨rounds, out, hd⟩ := ih
      exact (sound_of_dechunkLoop fits hd ha).2 hl
  intro cursor start size hc ha
  obtain ⟨rounds, out, hd⟩ := hr hc
  exact (sound_of_dechunkLoop fits hd ha).1

-- Every turn goes on by more than two bytes.
theorem dechunkLoop_of_framed (h : Framed width body) (hr : Reaches width body cursor)
    (hb : cursor < body.utf8.length → body.Boundary cursor) (hp : 0 < rounds)
    (hf : body.utf8.length < cursor + rounds) (out : Text) : ∃ t, dechunkLoop width body rounds cursor out = .ok t := by
  induction rounds generalizing cursor out
  case zero => cases hp
  case succ rounds ih =>
    by_cases hlt : cursor < body.utf8.length
    case neg => exact ⟨out, dechunkLoop_ok_iff.mpr (.inl ⟨turn_done (not_lt.mp hlt), rfl⟩)⟩
    case pos =>
      obtain ⟨before, rest, rfl, rfl⟩ := hb hlt
      cases hs : Text.splitOnce ['\r', '\n'] rest
      case none =>
        have hn : rest ≠ [] := by
          rintro rfl
          rw [append_nil] at hlt
          exact lt_irrefl _ hlt
        exact ⟨out, dechunkLoop_ok_iff.mpr (.inl ⟨turn_unended hn hs, rfl⟩)⟩
      case some p =>
        obtain ⟨line, r⟩ := p
        obtain ⟨_, _, hl⟩ := line_bounds fits hs
        cases hc : chunkSize width line
        case none => exact ⟨out, dechunkLoop_ok_iff.mpr (.inl ⟨(turn_line fits hs).mpr (by rw [hc]; rfl), rfl⟩)⟩
        case some size =>
          have ha : Announces width (before ++ rest) before.utf8.length (before.utf8.length + line.utf8.length + 2) size :=
            ⟨before, rest, line, r, rfl, rfl, hs, hc, rfl⟩
          have hg := h _ _ _ hr ha
          by_cases hz : r.utf8.length < size
          case pos =>
            have ht := (turn_chunk fits hs hc).mpr ⟨hg.lt, .inl ⟨hz, rfl⟩⟩
            exact ⟨out, dechunkLoop_ok_iff.mpr (.inl ⟨ht, rfl⟩)⟩
          case neg =>
            have hle : before.utf8.length + line.utf8.length + 2 + size ≤ (before ++ rest).utf8.length := by omega
            obtain ⟨⟨piece, after⟩, hp⟩ := isSome_iff_exists.mp
              (splitAt_isSome_iff.mpr ((boundary_line hs).mp (hg.boundary hle)))
            have ht := (turn_chunk fits hs hc).mpr ⟨hg.lt, .inr ⟨piece, after, hp, rfl⟩⟩
            obtain ⟨t, hd⟩ := ih (.next hr ha hle) hg.next (by omega) (by omega) (out ++ piece)
            exact ⟨t, dechunkLoop_ok_iff.mpr (.inr ⟨piece, _, ht, hd⟩)⟩

theorem dechunk_iff : (∃ t, dechunk width body = .ok t) ↔ Framed width body := by
  constructor
  case mp =>
    rintro ⟨t, h⟩
    exact framed_of_dechunk fits h
  case mpr =>
    intro h
    exact dechunkLoop_of_framed fits h .first (fun _ => ⟨[], body, rfl, rfl⟩) (succ_pos _) (by omega) []

end Dechunk

section Rejection

-- A text of which the first bytes are shown. They end between two characters, if there are more of them.
def Shown (libs : Account.Libs) (body : Text) : Prop :=
  Account.extractApiError libs body = none → 220 < body.trim.utf8.length → body.trim.Boundary 220

theorem sliceTo_eq (n : Nat) (t : Text) : Account.sliceTo n t = (Text.splitAt n t).map Prod.fst := by
  induction t generalizing n
  case nil =>
    rw [Account.sliceTo, Text.splitAt]
    split <;> rfl
  case cons c t ih =>
    rw [Account.sliceTo, Text.splitAt]
    split
    case isTrue => rfl
    case isFalse =>
      split
      case isTrue =>
        rw [ih, Option.map_map, Option.map_map]
        rfl
      case isFalse => rfl

theorem describeRejection_isSome_iff {libs : Account.Libs} {status : Nat} {body : Text} :
    (Account.describeRejection libs status body).isSome ↔ Shown libs body := by
  rw [Account.describeRejection, isSome_map, Account.rejectionDetail, Shown]
  cases Account.extractApiError libs body
  case some detail => simp
  case none =>
    by_cases hn : body.trim = []
    case pos => simp [hn, utf8_nil]
    case neg =>
      by_cases hl : 220 < body.trim.utf8.length
      case pos => simp [hn, hl, sliceTo_eq, ← splitAt_isSome_iff]
      case neg => simp [hn, hl]

end Rejection

section Response

variable {width : Nat} {cm : CaseMap}

-- The body of an answer that is taken apart into chunks.
def Chunked (cm : CaseMap) (raw : Bytes) (body : Text) : Prop :=
  ∃ head status, Text.splitOnce ['\r', '\n', '\r', '\n'] (Text.fromUtf8Lossy raw) = some (head, body) ∧
    statusOf ((Text.splitCrlf head).headD []) = some status ∧ (Text.splitCrlf head).tail.any (isChunked cm)

-- What an API server can send. The text that is made of it fits in the machine's memory.
structure Answer (width : Nat) where
  raw : Bytes
  fits : (Text.fromUtf8Lossy raw).utf8.length < 2 ^ (width - 1)

theorem Answer.fits_body (a : Answer width) {head body : Text}
    (h : Text.splitOnce ['\r', '\n', '\r', '\n'] (Text.fromUtf8Lossy a.raw) = some (head, body)) :
    body.utf8.length < 2 ^ (width - 1) := by
  refine lt_of_le_of_lt ?_ a.fits
  rw [splitOnce_eq_some h, utf8_append, length_append]
  exact le_add_left _ _

theorem parseResponse_iff (a : Answer width) :
    (∃ r, parseResponse width cm a.raw = .ok r) ↔ ∀ body, Chunked cm a.raw body → Framed width body := by
  cases hs : Text.splitOnce ['\r', '\n', '\r', '\n'] (Text.fromUtf8Lossy a.raw)
  case none =>
    refine iff_of_true ⟨_, by rw [parseResponse, hs]⟩ ?_
    rintro body ⟨head, status, he, _⟩
    cases hs.symm.trans he
  case some p =>
    obtain ⟨head, body⟩ := p
    cases ht : statusOf ((Text.splitCrlf head).headD [])
    case none =>
      refine iff_of_true ⟨_, by simp only [parseResponse, hs, ht]; rfl⟩ ?_
      rintro body' ⟨head', status, he, ht', _⟩
      cases hs.symm.trans he
      cases ht.symm.trans ht'
    case some status =>
      by_cases hc : (Text.splitCrlf head).tail.any (isChunked cm)
      case neg =>
        refine iff_of_true ⟨_, by simp only [parseResponse, hs, ht, if_neg hc]; rfl⟩ ?_
        rintro body' ⟨head', status', he, _, hc'⟩
        cases hs.symm.trans he
        exact absurd hc' hc
      case pos =>
        have hb : (∀ body', Chunked cm a.raw body' → Framed width body') ↔ Framed width body := by
          constructor
          case mp => exact fun h => h body ⟨head, status, hs, ht, hc⟩
          case mpr =>
            rintro h body' ⟨head', status', he, _⟩
            cases hs.symm.trans he
            exact h
        rw [hb, ← dechunk_iff (a.fits_body hs)]
        simp only [parseResponse, hs, ht, if_pos hc]
        cases dechunk width body <;> simp [Except.map]

-- An answer is read, and its body is described as the reason of a rejection, without a panic.
def Survives (width : Nat) (cm : CaseMap) (libs : Account.Libs) (raw : Bytes) : Prop :=
  ∃ r, parseResponse width cm raw = .ok r ∧
    ∀ status body, r = .ok (status, body) → ∀ code, (Account.describeRejection libs code body).isSome

-- Chunks have to end between two characters, and to be of a size that can be added. So has what is shown of the body.
theorem survives_iff (cm : CaseMap) (libs : Account.Libs) (a : Answer width) : Survives width cm libs a.raw ↔
      (∀ body, Chunked cm a.raw body → Framed width body) ∧
        ∀ status body, parseResponse width cm a.raw = .ok (.ok (status, body)) → Shown libs body := by
  rw [← parseResponse_iff]
  constructor
  case mp =>
    rintro ⟨r, hr, hb⟩
    refine ⟨⟨r, hr⟩, fun status body hp => ?_⟩
    exact describeRejection_isSome_iff.mp (hb status body (Except.ok.inj (hr.symm.trans hp)) status)
  case mpr =>
    rintro ⟨⟨r, hr⟩, hb⟩
    refine ⟨r, hr, fun status body he code => ?_⟩
    exact describeRejection_isSome_iff.mpr (hb status body (he ▸ hr))

def chunkedHead : Text :=
  "HTTP/1.1 200 OK\r\nTransfer-Encoding: chunked\r\n\r\n".toList

-- A chunk of one byte, with a character of two.
def halfCharacter : Text :=
  chunkedHead ++ "1\r\né\r\n0\r\n\r\n".toList

-- A size that does not leave room for the line before the data.
def hugeChunk : Text :=
  chunkedHead ++ "ffffffffffffffff\r\nx\r\n".toList

-- A page without an error of the API in it. Its 220th byte is inside of a character.
def longPage : Text :=
  'x' :: List.replicate 110 'é'

def forbidden : Text :=
  "HTTP/1.1 403 Forbidden\r\n\r\n".toList ++ longPage

def noLibs : Account.Libs where
  value _ := none
  account _ := .error ""
  displayStatus _ := ""

theorem not_survives_of_toBool {t : Text} {libs : Account.Libs}
    (h : (parseResponse 64 .ascii t.utf8).toBool = false) : ¬ Survives 64 .ascii libs t.utf8 := by
  rintro ⟨r, hr, _⟩
  rw [hr] at h
  cases h

theorem not_survives : ¬ Survives 64 .ascii noLibs halfCharacter.utf8 ∧ ¬ Survives 64 .ascii noLibs hugeChunk.utf8 ∧
      ¬ Survives 64 .ascii noLibs forbidden.utf8 := by
  refine ⟨not_survives_of_toBool ?_, not_survives_of_toBool ?_, ?_⟩
  · rw [parseResponse, fromUtf8Lossy_utf8]
    decide +kernel
  · rw [parseResponse, fromUtf8Lossy_utf8]
    decide +kernel
  · rintro ⟨r, hr, hb⟩
    have hs : Text.splitOnce ['\r', '\n', '\r', '\n'] forbidden = some ("HTTP/1.1 403 Forbidden".toList, longPage) :=
      splitOnce_append (b := []) (by decide) longPage
    rw [parseResponse, fromUtf8Lossy_utf8, hs] at hr
    have hn := hb 403 longPage (Except.ok.inj hr).symm 403
    revert hn
    decide +kernel

end Response

end Engine.ApiFront
