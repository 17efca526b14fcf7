import SoildTunnel.Engine.Sniff
import SoildTunnel.Rust.Pattern

-- Host names out of HTTP heads of which only a part has come.
namespace Engine.Sniff

open Rust List Delimited

variable {cm : CaseMap} {p b : Bytes} {v w t : Text}

def lineValue (line : Text) : Option Text :=
  (Delimited.cut ':' line).bind fun (name, value) =>
    if Text.eqIgnoreAsciiCase name "host".toList then some value else none

-- The first one before an empty line counts.
def hostValue : List Text → Option Text
  | [] => none
  | line :: lines => if line = [] then none else (lineValue line).or (hostValue lines)

def readHost (cm : CaseMap) (value : Text) : Option Text :=
  plausibleHost cm (Text.utf8 (withoutPort (Text.trim value)))

theorem hostHeader_eq (lines : List Text) : hostHeader cm lines = (hostValue lines).bind (readHost cm) := by
  induction lines
  case nil => rfl
  case cons line lines ih =>
    rw [hostHeader, hostValue]
    split
    case isTrue => rfl
    case isFalse =>
      rw [lineValue, ih]
      split
      case h_1 hc => rw [hc]; rfl
      case h_2 name value hc =>
        rw [hc, Option.bind_some]
        dsimp only
        split <;> rfl

def headers (buf : Bytes) : List Text :=
  match Text.splitCrlf (Text.fromUtf8Lossy (buf.take PEEK_BUDGET)) with
  | [] => []
  | requestLine :: lines => if looksLikeHttp requestLine then lines else []

theorem httpHost_eq (buf : Bytes) : httpHost cm buf = (hostValue (headers buf)).bind (readHost cm) := by
  rw [httpHost, headers]
  cases Text.splitCrlf (Text.fromUtf8Lossy (buf.take PEEK_BUDGET))
  case nil => rfl
  case cons requestLine lines =>
    dsimp only
    split
    case isTrue => exact hostHeader_eq lines
    case isFalse => rfl

-- What there is of the value when the bytes end inside the Host line, which is then the last one.
def brokenOff : List Text → Option Text
  | [] => none
  | [line] => lineValue line
  | line :: lines => if line = [] ∨ (lineValue line).isSome then none else brokenOff lines

variable {name : Text}

section Lines

theorem splitCrlf_ne_nil (t : Text) : Text.splitCrlf t ≠ [] := by
  rw [Text.splitCrlf_eq]
  cases Text.splitOnce ['\r', '\n'] t <;> exact cons_ne_nil _ _

theorem splitCrlf_of_some {t x y : Text} (h : Text.splitOnce ['\r', '\n'] t = some (x, y)) :
    Text.splitCrlf t = x :: Text.splitCrlf y := by
  rw [Text.splitCrlf_eq, h]
  rfl

theorem splitCrlf_of_none (h : Text.splitOnce ['\r', '\n'] t = none) : Text.splitCrlf t = [t] := by
  rw [Text.splitCrlf_eq, h]
  rfl

theorem brokenOff_cons (line : Text) (t : Text) : brokenOff (line :: Text.splitCrlf t) =
      if line = [] ∨ (lineValue line).isSome then none else brokenOff (Text.splitCrlf t) := by
  cases h : Text.splitCrlf t
  case nil => exact absurd h (splitCrlf_ne_nil t)
  case cons => rfl

theorem hostValue_of_brokenOff {lines : List Text} (h : brokenOff lines = some v) : hostValue lines = some v := by
  induction lines
  case nil => cases h
  case cons line lines ih =>
    rw [hostValue]
    cases lines
    case nil =>
      have hl : line ≠ [] := by
        rintro rfl
        cases h
      rw [if_neg hl, show lineValue line = some v from h]
      rfl
    case cons line' lines =>
      rw [brokenOff] at h
      · split at h
        case isTrue => cases h
        case isFalse hl =>
          obtain ⟨hl, hv⟩ := not_or.mp hl
          rw [if_neg hl, Option.not_isSome_iff_eq_none.mp hv, Option.none_or, ih h]
      · exact cons_ne_nil _ _

theorem hostValue_of_continued {s : Text} {t' : Text} (hc : Text.Continued t s t') (h : hostValue (Text.splitCrlf t) = some v)
    (hb : brokenOff (Text.splitCrlf t) = none) : hostValue (Text.splitCrlf t') = some v := by
  induction t using Text.lines_induction generalizing t'
  case last t hs =>
    rw [splitCrlf_of_none hs] at h hb
    rw [hostValue, show lineValue t = none from hb] at h
    split at h <;> cases h
  case next t x y hs ih =>
    obtain ⟨y', hs', hc'⟩ := hc.splitOnce hs
    rw [splitCrlf_of_some hs, hostValue] at h
    rw [splitCrlf_of_some hs, brokenOff_cons] at hb
    rw [splitCrlf_of_some hs', hostValue]
    obtain ⟨hx, h⟩ := Option.ite_none_left_eq_some.mp h
    rw [if_neg hx]
    cases hv : lineValue x
    case some => rw [hv] at h; exact h
    case none =>
      rw [hv] at h hb
      exact ih hc' h ((if_neg (by simp [hx])).symm.trans hb)

theorem lineValue_eq_some {line : Text} (h : lineValue line = some v) :
    ∃ name, line = name ++ ':' :: v ∧ ':' ∉ name ∧ Text.eqIgnoreAsciiCase name "host".toList := by
  obtain ⟨⟨name, value⟩, hc, hv⟩ := Option.bind_eq_some_iff.mp h
  obtain ⟨hl, hn⟩ := cut_eq_some_iff.mp hc
  dsimp only at hv
  split at hv
  case isTrue he => cases hv; exact ⟨name, hl, hn, he⟩
  case isFalse => cases hv

theorem lineValue_of_name (hn : ':' ∉ name) (he : Text.eqIgnoreAsciiCase name "host".toList) (v : Text) :
    lineValue (name ++ ':' :: v) = some v := by
  rw [lineValue, cut_append hn, Option.bind_some]
  exact if_pos he

-- The line goes on, or it ends in the carriage return that has come already.
def Extends (v w : Text) : Prop :=
  v <+: w ∨ v = w ++ ['\r']

theorem hostValue_single {line : Text} (h : lineValue line = some w) (lines : List Text) :
    hostValue (line :: lines) = some w := by
  have hl : line ≠ [] := by
    rintro rfl
    cases h
  rw [hostValue, if_neg hl, h, Option.some_or]

theorem hostValue_of_lineValue {s : Text} (h : lineValue t = some v) (hs : Text.splitOnce ['\r', '\n'] t = none) :
    ∃ w, hostValue (Text.splitCrlf (t ++ s)) = some w ∧ Extends v w := by
  obtain ⟨name, rfl, hn, he⟩ := lineValue_eq_some h
  cases hs' : Text.splitOnce ['\r', '\n'] (name ++ ':' :: v ++ s)
  case none =>
    rw [splitCrlf_of_none hs', append_assoc]
    exact ⟨v ++ s, hostValue_single (lineValue_of_name hn he _) _, .inl (prefix_append v s)⟩
  case some x =>
    obtain ⟨l, y⟩ := x
    rw [splitCrlf_of_some hs']
    rcases Text.splitOnce_append_of_none hs hs' with ⟨z, hz⟩ | hz
    · rw [← hz, append_assoc]
      exact ⟨v ++ z, hostValue_single (lineValue_of_name hn he _) _, .inl (prefix_append v z)⟩
    · obtain ⟨w, rfl⟩ : ∃ w, v = w ++ ['\r'] := by
        rcases eq_nil_or_concat v with rfl | ⟨w, c, rfl⟩
        · have := congrArg List.getLast? hz
          simp at this
        · rw [concat_eq_append, ← cons_append, ← append_assoc] at hz
          obtain ⟨_, hc⟩ := append_inj' hz rfl
          exact ⟨w, by rw [concat_eq_append, hc]⟩
      rw [← cons_append, ← append_assoc] at hz
      obtain ⟨rfl, _⟩ := append_inj' hz rfl
      exact ⟨w, hostValue_single (lineValue_of_name hn he _) _, .inr rfl⟩

theorem brokenOff_continued {s t' : Text} (hc : Text.Continued t s t') (h : brokenOff (Text.splitCrlf t) = some v) :
    Text.replacement ∈ v ∨ ∃ w, hostValue (Text.splitCrlf t') = some w ∧ Extends v w := by
  induction t using Text.lines_induction generalizing t'
  case last t hs =>
    rw [splitCrlf_of_none hs] at h
    rcases hc with rfl | ⟨t₀, u, rfl, rfl⟩
    · exact .inr (hostValue_of_lineValue h hs)
    · obtain ⟨name, hl, _⟩ := lineValue_eq_some h
      refine .inl ?_
      rcases eq_nil_or_concat v with rfl | ⟨w, c, rfl⟩
      · have := congrArg List.getLast? hl
        simp at this
        exact absurd this (by decide)
      · rw [concat_eq_append, ← cons_append, ← append_assoc] at hl
        obtain ⟨_, hc⟩ := append_inj' hl rfl
        rw [concat_eq_append, ← hc]
        simp
  case next t x y hs ih =>
    obtain ⟨y', hs', hc'⟩ := hc.splitOnce hs
    rw [splitCrlf_of_some hs, brokenOff_cons] at h
    rw [splitCrlf_of_some hs', hostValue]
    obtain ⟨hx, h⟩ := Option.ite_none_left_eq_some.mp h
    obtain ⟨hx, hv⟩ := not_or.mp hx
    rw [if_neg hx, Option.not_isSome_iff_eq_none.mp hv, Option.none_or]
    exact ih hc' h

end Lines

section Name

-- What `plausible_host` is given, and the name that it finds there.
def hostPart (value : Text) : Text :=
  withoutPort (Text.trim value)

def nameIn (t : Text) : Text :=
  Text.trimEndMatches '.' (Text.trim t)

def hostName (value : Text) : Text :=
  nameIn (hostPart value)

structure GoodName (name : Text) : Prop where
  ne_nil : name ≠ []
  short : (Text.utf8 name).length ≤ MAX_HOST_LEN
  chars : (Text.utf8 name).all isHostByte
  dot : '.' ∈ name
  notIp : parseIp name = none

theorem plausibleHost_eq_some_iff {n : Text} : plausibleHost cm (Text.utf8 t) = some n ↔
    (Text.utf8 t).length ≤ MAX_HOST_LEN ∧ GoodName (nameIn t) ∧ n = cm.toLowercase (nameIn t) := by
  have he : plausibleHost cm (Text.utf8 t) =
      if Text.utf8 t = [] ∨ MAX_HOST_LEN < (Text.utf8 t).length then none
      else if nameIn t = [] ∨ MAX_HOST_LEN < (Text.utf8 (nameIn t)).length then none
      else if !(Text.utf8 (nameIn t)).all isHostByte || '.' ∉ nameIn t then none
      else if (parseIp (nameIn t)).isSome then none
      else some (cm.toLowercase (nameIn t)) := by
    rw [plausibleHost, Text.fromUtf8_utf8]
    rfl
  rw [he]
  constructor
  case mp =>
    intro h
    obtain ⟨h₁, h⟩ := Option.ite_none_left_eq_some.mp h
    obtain ⟨h₂, h⟩ := Option.ite_none_left_eq_some.mp h
    obtain ⟨h₃, h⟩ := Option.ite_none_left_eq_some.mp h
    obtain ⟨h₄, h⟩ := Option.ite_none_left_eq_some.mp h
    cases h
    obtain ⟨_, hl⟩ := not_or.mp h₁
    obtain ⟨hn, hl'⟩ := not_or.mp h₂
    simp only [Bool.or_eq_true, not_or, Bool.not_eq_true', decide_eq_true_eq, not_not] at h₃
    exact ⟨Nat.le_of_not_lt hl, ⟨hn, Nat.le_of_not_lt hl', by simpa using h₃.1, h₃.2, by simpa using h₄⟩, rfl⟩
  case mpr =>
    intro ⟨hl, hn, he⟩
    have ht : Text.utf8 t ≠ [] := by
      intro h
      have ht := Text.fromUtf8_utf8 t
      rw [h, Text.fromUtf8] at ht
      cases ht
      exact hn.ne_nil rfl
    rw [if_neg (not_or.mpr ⟨ht, Nat.not_lt.mpr hl⟩), if_neg (not_or.mpr ⟨hn.ne_nil, Nat.not_lt.mpr hn.short⟩),
      if_neg (by simp [hn.chars, hn.dot]), if_neg (by simp [hn.notIp]), he]

theorem readHost_eq_some_iff {n : Text} : readHost cm v = some n ↔
    (Text.utf8 (hostPart v)).length ≤ MAX_HOST_LEN ∧ GoodName (hostName v) ∧ n = cm.toLowercase (hostName v) :=
  plausibleHost_eq_some_iff

theorem forall_mem_utf8 (h : (Text.utf8 name).all isHostByte) : ∀ c ∈ name, c.toNat < 128 := by
  intro c hc
  have hb : ∀ b ∈ String.utf8EncodeChar c, isHostByte b := fun b hb =>
    all_eq_true.mp h b (mem_flatMap.mpr ⟨c, hc, hb⟩)
  have hlow : ∀ b : UInt8, isHostByte b → ¬ 0x80 ≤ b := Text.forall_byte (by decide +kernel)
  have he := Text.encoded_utf8EncodeChar c
  generalize String.utf8EncodeChar c = bytes at he hb
  cases he
  case single h => exact h
  case several b lo hi v vs head _ _ _ => exact absurd head (hlow b (hb b mem_cons_self))

theorem toLowercase_of_goodName (h : GoodName name) : cm.toLowercase name = name.map Char.toLower :=
  cm.toLowercase_ascii (forall_mem_utf8 h.chars)

abbrev isSpace (c : Char) : Bool :=
  isWhitespace c.toNat

variable {f : Char → Bool} {c : Char}

theorem mem_rdropWhile (hc : f c = false) (h : c ∈ t) : c ∈ t.rdropWhile f := by
  rw [← rdropWhile_append_rtakeWhile (p := f) t] at h
  rcases mem_append.mp h with h | h
  · exact h
  · rw [mem_rtakeWhile_imp h] at hc
    cases hc

theorem mem_dropWhile (hc : f c = false) (h : c ∈ t) : c ∈ t.dropWhile f := by
  rw [← t.takeWhile_append_dropWhile (p := f)] at h
  rcases mem_append.mp h with h | h
  · rw [mem_takeWhile_imp h] at hc
    cases hc
  · exact h

theorem mem_trim (hc : isSpace c = false) (h : c ∈ t) : c ∈ Text.trim t :=
  mem_rdropWhile hc (mem_dropWhile hc h)

theorem mem_withoutPort (hd : c.isDigit = false) (hc : c ≠ ':') (h : c ∈ t) : c ∈ withoutPort t := by
  unfold withoutPort
  split
  case h_2 => exact h
  case h_1 host port hr =>
    split
    case isFalse => exact h
    case isTrue hp =>
      rw [(rcut_eq_some hr).1] at h
      rcases mem_append.mp h with h | h
      · exact h
      · rcases mem_cons.mp h with h | h
        · exact absurd h hc
        · rw [all_eq_true.mp hp c h] at hd
          cases hd

theorem readHost_of_replacement (h : Text.replacement ∈ v) : readHost cm v = none := by
  have hm : Text.replacement ∈ hostName v :=
    mem_rdropWhile (by decide) (mem_trim (by decide) (mem_withoutPort (by decide) (by decide) (mem_trim (by decide) h)))
  cases hr : readHost cm v
  case none => rfl
  case some n =>
    have ⟨_, hg, _⟩ := readHost_eq_some_iff.mp hr
    exact absurd (forall_mem_utf8 hg.chars _ hm) (by decide)

theorem withoutPort_isPrefix (t : Text) : withoutPort t <+: t := by
  unfold withoutPort
  split
  case h_2 => exact prefix_rfl
  case h_1 host port hr =>
    split
    case isFalse => exact prefix_rfl
    case isTrue =>
      rw [(rcut_eq_some hr).1]
      exact prefix_append _ _

theorem hostName_isPrefix (v : Text) : hostName v <+: v.dropWhile isSpace := by
  have ht : Text.trim v <+: v.dropWhile isSpace := rdropWhile_prefix _ _
  have hp : hostPart v <+: v.dropWhile isSpace := (withoutPort_isPrefix _).trans ht
  have hd : (hostPart v).dropWhile isSpace = hostPart v :=
    Delimited.dropWhile_eq_self_of_prefix hp (dropWhile_idempotent _ _)
  have hn : Text.trim (hostPart v) <+: (hostPart v).dropWhile isSpace := rdropWhile_prefix _ _
  rw [hd] at hn
  exact (List.rdropWhile_prefix _ _).trans (hn.trans hp)

theorem dropWhile_isPrefix (h : v <+: w) (hv : v.dropWhile f ≠ []) : v.dropWhile f <+: w.dropWhile f := by
  obtain ⟨x, rfl⟩ := h
  rw [dropWhile_append, if_neg (by simpa using hv)]
  exact prefix_append _ _

theorem hostName_eq_of_length (h : v <+: w) (hv : hostName v ≠ []) (hl : (hostName v).length = (hostName w).length) :
    hostName v = hostName w := by
  have hd : v.dropWhile isSpace ≠ [] := by
    intro he
    have := hostName_isPrefix v
    rw [he] at this
    exact hv (prefix_nil.mp this)
  have hp := (hostName_isPrefix v).trans (dropWhile_isPrefix h hd)
  exact (prefix_of_prefix_length_le hp (hostName_isPrefix w) (Nat.le_of_eq hl)).eq_of_length hl

end Name

-- The part of the line that has come holds the whole name already.
def NameComplete (v w : Text) : Prop :=
  hostName v = hostName w ∧ (Text.utf8 (hostPart w)).length ≤ MAX_HOST_LEN

theorem readHost_eq_iff (he : Extends v w) {n : Text} (hv : readHost cm v = some n) :
    readHost cm w = some n ↔ NameComplete v w := by
  obtain ⟨_, hg, hn⟩ := readHost_eq_some_iff.mp hv
  constructor
  case mp =>
    intro hw
    obtain ⟨hl, hg', hn'⟩ := readHost_eq_some_iff.mp hw
    have hlen : (hostName v).length = (hostName w).length := by
      have hm : (hostName v).map Char.toLower = (hostName w).map Char.toLower := by
        rw [← toLowercase_of_goodName hg, ← toLowercase_of_goodName hg']
        exact hn.symm.trans hn'
      simpa using congrArg List.length hm
    refine ⟨?_, hl⟩
    rcases he with he | rfl
    · exact hostName_eq_of_length he hg.ne_nil hlen
    · exact (hostName_eq_of_length (prefix_append w _) hg'.ne_nil hlen.symm).symm
  case mpr =>
    intro ⟨hname, hl⟩
    exact readHost_eq_some_iff.mpr ⟨hl, hname ▸ hg, hname ▸ hn⟩

theorem headers_append (p rest : Bytes) : headers p = [] ∨
    ∃ t s t', Text.Continued t s t' ∧ headers p = Text.splitCrlf t ∧ headers (p ++ rest) = Text.splitCrlf t' := by
  obtain ⟨r, hr⟩ : p.take PEEK_BUDGET <+: (p ++ rest).take PEEK_BUDGET := (prefix_append p rest).take _
  have hc := Text.fromUtf8Lossy_append_continued (p.take PEEK_BUDGET) r
  rw [hr] at hc
  unfold headers
  cases hs : Text.splitOnce ['\r', '\n'] (Text.fromUtf8Lossy (p.take PEEK_BUDGET))
  case none =>
    rw [splitCrlf_of_none hs]
    exact .inl (ite_self _)
  case some x =>
    obtain ⟨t', hs', hc'⟩ := hc.splitOnce hs
    rw [splitCrlf_of_some hs, splitCrlf_of_some hs']
    dsimp only
    split
    case isTrue => exact .inr ⟨_, _, _, hc', rfl, rfl⟩
    case isFalse => exact .inl rfl

-- Only a head that ends inside the Host line can mislead, and then exactly when the name goes on.
theorem httpHost_append_iff (cm : CaseMap) (p rest : Bytes) :
    (httpHost cm p = none ∨ httpHost cm p = httpHost cm (p ++ rest)) ↔
      ∀ v, brokenOff (headers p) = some v →
        readHost cm v = none ∨ ∃ w, hostValue (headers (p ++ rest)) = some w ∧ NameComplete v w := by
  rw [httpHost_eq, httpHost_eq]
  rcases headers_append p rest with h | ⟨t, s, t', hc, h, h'⟩
  · rw [h]
    refine iff_of_true (.inl rfl) ?_
    rintro v ⟨⟩
  rw [h, h']
  cases hb : brokenOff (Text.splitCrlf t)
  case none =>
    refine iff_of_true ?_ (by rintro v ⟨⟩)
    cases hv : hostValue (Text.splitCrlf t)
    case none => exact .inl rfl
    case some v => rw [hostValue_of_continued hc hv hb]; exact .inr rfl
  case some v =>
    rw [hostValue_of_brokenOff hb, Option.bind_some]
    simp only [Option.some.injEq, forall_eq']
    cases hv : readHost cm v
    case none => simp
    case some n =>
      simp only [reduceCtorEq, false_or]
      rcases brokenOff_continued hc hb with hr | ⟨w, hw, he⟩
      · cases hv.symm.trans (readHost_of_replacement hr)
      · rw [hw, Option.bind_some, eq_comm, readHost_eq_iff he hv]
        simp

-- `Host: a.bc` and then a `d`.
theorem not_httpHost_append :
    let p := Text.utf8 "GET / HTTP/1.1\r\nHost: a.bc".toList
    let rest := Text.utf8 "d\r\n\r\n".toList
    ¬ (httpHost .ascii p = none ∨ httpHost .ascii p = httpHost .ascii (p ++ rest)) := by
  decide +kernel

end Engine.Sniff
