import SoildTunnel.Engine.SignIn
import SoildTunnel.Engine.Theorems.ZeroTrust
import SoildTunnel.Rust.Slice

-- What is escaped is read back, and what is searched for is found.
namespace Engine.ZeroTrust

open Rust List Option Delimited Text

section Entities

variable {c : Char}

theorem leadingEntity_length {tail after : Text} (h : leadingEntity tail = some (c, after)) :
    after.length < tail.length := by
  unfold leadingEntity at h
  split at h
  case h_1 entity after' hc =>
    obtain ⟨_, h⟩ := ite_none_right_eq_some.mp h
    obtain ⟨_, _, he⟩ := map_eq_some_iff.mp h
    cases he
    rw [(cut_eq_some_iff.mp hc).1, length_append, length_cons]
    omega
  case h_2 => cases h

theorem entityRound_length {rest text rest' : Text} (h : entityRound rest = some (text, rest')) :
    rest'.length < rest.length := by
  unfold entityRound at h
  split at h
  case h_1 => cases h
  case h_2 before tail hc =>
    have hl : tail.length < rest.length := by
      rw [(cut_eq_some_iff.mp hc).1, length_append, length_cons]
      omega
    split at h
    case h_1 c after he =>
      cases h
      exact (leadingEntity_length he).trans hl
    case h_2 =>
      cases h
      exact hl

-- Every round takes something off the text.
theorem decodeEntities_isSome {rounds : Nat} {rest : Text} (h : rest.length < rounds) (out : Text) :
    (decodeEntities rounds out rest).isSome := by
  induction rounds generalizing out rest
  case zero => cases h
  case succ rounds ih =>
    rw [decodeEntities]
    split
    case h_1 => rfl
    case h_2 text rest' hr =>
      have hl := entityRound_length hr
      exact ih (by omega) _

theorem entityRound_cons (hc : c ≠ '&') (rest : Text) :
    entityRound (c :: rest) = (entityRound rest).map (Prod.map (c :: ·) id) := by
  have hcut : Delimited.cut '&' (c :: rest) = (Delimited.cut '&' rest).map (Prod.map (c :: ·) id) := by
    rw [Delimited.cut, if_neg hc]
    rfl
  unfold entityRound
  rw [hcut]
  cases Delimited.cut '&' rest
  case none => rfl
  case some x =>
    simp only [map_some, Prod.map]
    cases h : leadingEntity x.2 <;> simp [h]

theorem decodeEntities_cons (hc : c ≠ '&') (rounds : Nat) (out rest : Text) :
    decodeEntities rounds out (c :: rest) = decodeEntities rounds (out ++ [c]) rest := by
  cases rounds
  case zero => rfl
  case succ rounds =>
    rw [decodeEntities, decodeEntities, entityRound_cons hc]
    cases entityRound rest
    case none => simp
    case some x => simp

variable {entity : Text}

theorem decodeEntities_entity (hs : ';' ∉ entity)
    (hl : (Text.utf8 ('&' :: entity)).length ≤ 8) (hd : decodeEntity entity = some c) (rounds : Nat) (out rest : Text) :
    decodeEntities (rounds + 1) out ('&' :: (entity ++ ';' :: rest)) = decodeEntities rounds (out ++ [c]) rest := by
  have he : leadingEntity (entity ++ ';' :: rest) = some (c, rest) := by
    unfold leadingEntity
    rw [cut_append hs]
    dsimp only
    rw [if_pos hl, hd, map_some]
  have hr : entityRound ('&' :: (entity ++ ';' :: rest)) = some ([c], rest) := by
    have hcut : Delimited.cut '&' ('&' :: (entity ++ ';' :: rest)) = some ([], entity ++ ';' :: rest) :=
      cut_append (a := []) nofun
    unfold entityRound
    rw [hcut]
    dsimp only
    rw [he]
    rfl
  rw [decodeEntities, hr]

def namedEntities : List (Char × Text) :=
  [('&', "amp".toList), ('<', "lt".toList), ('>', "gt".toList), ('"', "quot".toList), ('\'', "apos".toList)]

-- What may stand for a character between the ampersand and the semicolon.
inductive Stands (c : Char) : Text → Prop
  | named {name : Text} : (c, name) ∈ namedEntities → Stands c name
  | decimal {digits : Text} : Text.Spells 10 digits c.toNat → Stands c ('#' :: digits)
  | hexadecimal {x : Char} {digits : Text} :
    x ∈ ['x', 'X'] → Text.Spells 16 digits c.toNat → Stands c ('#' :: x :: digits)

theorem decodeEntity_named {name : Text} (h : (c, name) ∈ namedEntities) : decodeEntity name = some c := by
  have hd : ∀ x ∈ namedEntities, decodeEntity x.2 = some x.1 := by decide
  exact hd _ h

theorem decodeEntity_numeric (h : entity ≠ "39".toList) :
    decodeEntity ('#' :: entity) = numericEntity ('#' :: entity) := by
  unfold decodeEntity
  rw [if_neg (by simp), if_neg (by simp), if_neg (by simp), if_neg (by simp), if_neg]
  simpa using h

theorem toNat_lt (c : Char) : c.toNat < 2 ^ 32 := by
  have := toNat_valid c
  omega

theorem decodeEntity_decimal {digits : Text} (h : Text.Spells 10 digits c.toNat) :
    decodeEntity ('#' :: digits) = some c := by
  by_cases h39 : digits = "39".toList
  case pos =>
    have hv : c.toNat = 39 := by rw [← h.value, h39]; rfl
    have hc : c = '\'' := by rw [← Char.ofNat_toNat c, hv]
    rw [h39, hc]
    rfl
  case neg =>
    have hx {x : Char} (hd : Text.digit 10 x = none) : Text.stripPrefix ['#', x] ('#' :: digits) = none := by
      rw [eq_none_iff_forall_ne_some]
      intro r hr
      have he := stripPrefix_eq_some.mp hr
      rw [cons_append, singleton_append] at he
      have hm : x ∈ digits := List.cons.inj he |>.2 ▸ mem_cons_self
      have := all_eq_true.mp (of_decide_eq_true h.numeral).2 x hm
      rw [hd] at this
      cases this
    have hs : Text.stripPrefix "#".toList ('#' :: digits) = some digits := stripPrefix_eq_some.mpr rfl
    rw [decodeEntity_numeric h39]
    unfold numericEntity
    rw [show "#x".toList = ['#', 'x'] from rfl, show "#X".toList = ['#', 'X'] from rfl, hx (by decide), hx (by decide), hs]
    simp only [or_none, bind_none, none_or, bind_some]
    rw [fromStrRadix_of_spells h (toNat_lt c), bind_some, charFromU32_toNat]

theorem decodeEntity_hexadecimal {x : Char} {digits : Text} (hx : x ∈ ['x', 'X']) (h : Text.Spells 16 digits c.toNat) :
    decodeEntity ('#' :: x :: digits) = some c := by
  have hs : (Text.stripPrefix "#x".toList ('#' :: x :: digits)).or (Text.stripPrefix "#X".toList ('#' :: x :: digits)) =
      some digits := by
    rcases mem_pair.mp hx with rfl | rfl
    · rw [show Text.stripPrefix "#x".toList ('#' :: 'x' :: digits) = some digits from stripPrefix_eq_some.mpr rfl]
      rfl
    · have hn : Text.stripPrefix "#x".toList ('#' :: 'X' :: digits) = none := by simp [Text.stripPrefix]
      rw [hn, none_or]
      exact stripPrefix_eq_some.mpr rfl
  have h39 : x :: digits ≠ "39".toList := by
    rcases mem_pair.mp hx with rfl | rfl <;> simp
  rw [decodeEntity_numeric h39]
  unfold numericEntity
  dsimp only
  rw [hs, bind_some, fromStrRadix_of_spells h (toNat_lt c), some_or, bind_some,
    charFromU32_toNat]

theorem Stands.decodeEntity (h : Stands c entity) : decodeEntity entity = some c := by
  cases h
  case named h => exact decodeEntity_named h
  case decimal h => exact decodeEntity_decimal h
  case hexadecimal hx h => exact decodeEntity_hexadecimal hx h

theorem Stands.mem {d : Char} (h : Stands c entity) (hd : d ∈ entity) : d.isAlphanum ∨ d = '#' := by
  cases h
  case named h =>
    have ha : ∀ x ∈ namedEntities, x.2.all Char.isAlphanum := by decide
    exact .inl (all_eq_true.mp (ha _ h) d hd)
  case decimal h =>
    rcases mem_cons.mp hd with rfl | hd
    · exact .inr rfl
    · exact .inl (h.isAlphanum hd)
  case hexadecimal x digits hx h =>
    rcases mem_cons.mp hd with rfl | hd
    · exact .inr rfl
    · rcases mem_cons.mp hd with rfl | hd
      · rcases mem_pair.mp hx with rfl | rfl <;> exact .inl (by decide)
      · exact .inl (h.isAlphanum hd)

theorem Stands.semicolon (h : Stands c entity) : ';' ∉ entity :=
  fun hm => absurd (h.mem hm) (by decide)

theorem Stands.length_utf8 (h : Stands c entity) : (Text.utf8 ('&' :: entity)).length = entity.length + 1 := by
  refine (length_utf8_of_ascii fun d hd => ?_).trans length_cons
  rcases mem_cons.mp hd with rfl | hd
  · decide
  · rcases h.mem hd with ha | rfl
    · have := isAlphanum_bounds ha
      omega
    · decide

inductive Escapes : Text → Text → Prop
  | nil : Escapes [] []
  | plain {c : Char} {s t : Text} : c ∉ namedEntities.map Prod.fst → Escapes s t → Escapes (c :: s) (c :: t)
  | entity {c : Char} {entity s t : Text} :
    c ∈ namedEntities.map Prod.fst → Stands c entity → ('&' :: (entity ++ [';'])).length ≤ 9 → Escapes s t →
    Escapes (c :: s) ('&' :: (entity ++ ';' :: t))

theorem Escapes.decodeEntities {s t : Text} (h : Escapes s t) {rounds : Nat} (hr : t.length < rounds) (out : Text) :
    decodeEntities rounds out t = some (out ++ s) := by
  induction h generalizing rounds out
  case nil =>
    obtain ⟨rounds, rfl⟩ := Nat.exists_eq_add_of_lt hr
    rfl
  case plain c s t hc _ ih =>
    have hn : c ≠ '&' := fun he => hc (he ▸ mem_cons_self)
    rw [decodeEntities_cons hn, ih (by rw [length_cons] at hr; omega), append_assoc, singleton_append]
  case entity c entity s t _ hs hl _ ih =>
    rw [length_cons, length_append, length_cons] at hr
    rw [length_cons, length_append, length_singleton] at hl
    obtain ⟨rounds, rfl⟩ := Nat.exists_eq_succ_of_ne_zero (Nat.ne_of_gt (Nat.zero_lt_of_lt hr))
    have hb : (Text.utf8 ('&' :: entity)).length ≤ 8 := by
      rw [hs.length_utf8]
      omega
    rw [Nat.succ_eq_add_one, decodeEntities_entity hs.semicolon hb hs.decodeEntity, ih (by omega), append_assoc,
      singleton_append]

-- The loop ends, and it undoes every escaping, once.
theorem decodes_entities : (∀ raw : Text, ∀ rounds > raw.length, (decodeEntities rounds [] raw).isSome) ∧
      ∀ s t : Text, Escapes s t → ∀ rounds > t.length, decodeEntities rounds [] t = some s :=
  ⟨fun _ _ hr => decodeEntities_isSome hr [], fun _ _ h _ hr => h.decodeEntities hr []⟩

example : decodeEntities 99 [] "a&amp;lt;&#x27;b&#0062;&c;".toList = some "a&lt;'b>&c;".toList := by decide

end Entities

section Percent

def twoDigits (x y : UInt8) : Option UInt8 :=
  (Upstream.hexDigit x).bind fun h => (Upstream.hexDigit y).map fun l => h * 16 + l

def decoded (raw : Text) : Text :=
  Text.fromUtf8Lossy (percentWith twoDigits raw.utf8)

-- A percent sign that is followed by a plus sign and one digit.
def SignedEscape (bytes : Bytes) : Prop :=
  ∃ y, (Upstream.hexDigit y).isSome ∧ [37, 43, y] <:+: bytes

-- Two lists of bytes that part at characters of ASCII.
def Parts (p q : Bytes) : Prop :=
  ∃ a v w r r', p = a ++ v :: r ∧ q = a ++ w :: r' ∧ v < 0x80 ∧ w < 0x80 ∧ v ≠ w

theorem Parts.cons {p q : Bytes} (h : Parts p q) (b : UInt8) : Parts (b :: p) (b :: q) := by
  obtain ⟨a, v, w, r, r', rfl, rfl, h⟩ := h
  exact ⟨b :: a, v, w, r, r', rfl, rfl, h⟩

theorem Parts.fromUtf8Lossy_ne {p q : Bytes} (h : Parts p q) : Text.fromUtf8Lossy p ≠ Text.fromUtf8Lossy q := by
  obtain ⟨a, v, w, r, r', rfl, rfl, hv, hw, hne⟩ := h
  rw [fromUtf8Lossy_append_ascii hv, fromUtf8Lossy_append_ascii hw]
  intro he
  have hc := (List.cons.inj (append_cancel_left he)).1
  have hu := congrArg String.utf8EncodeChar hc
  rw [utf8EncodeChar_ascii hv, utf8EncodeChar_ascii hw] at hu
  exact hne (singleton_inj.mp hu)

variable {x y : UInt8}

theorem hexDigit_lt {v : UInt8} (h : Upstream.hexDigit y = some v) : v < 0x80 ∧ v ≠ 37 := by
  have hd (y : UInt8) : (Upstream.hexDigit y).all fun v => v < 0x80 ∧ v ≠ 37 :=
    forall_byte (P := fun y => (Upstream.hexDigit y).all fun v => v < 0x80 ∧ v ≠ 37) (by decide +kernel) y
  have hv := hd y
  rw [h] at hv
  exact of_decide_eq_true hv

theorem twoDigits_of_isSome (h : (twoDigits x y).isSome) : x ≠ 37 ∧ x ≠ 43 ∧ y ≠ 37 := by
  refine ⟨?_, ?_, ?_⟩
  · rintro rfl
    cases h
  · rintro rfl
    cases h
  · rintro rfl
    unfold twoDigits at h
    cases hx : Upstream.hexDigit x <;> rw [hx] at h <;> cases h

theorem hexPair_eq (x y : UInt8) : Upstream.hexPair x y = if x = 43 then Upstream.hexDigit y else twoDigits x y := rfl

variable {b : UInt8}

-- An escape in three bytes and more stands at their front or behind their first byte.
theorem signedEscape_cons {r : Bytes} : SignedEscape (b :: x :: y :: r) ↔
      (b = 37 ∧ x = 43 ∧ (Upstream.hexDigit y).isSome) ∨ SignedEscape (x :: y :: r) := by
  unfold SignedEscape
  simp only [infix_cons_iff (a := b), cons_prefix_cons, nil_prefix, and_true]
  constructor
  case mp =>
    rintro ⟨z, hz, ⟨rfl, rfl, rfl⟩ | hi⟩
    · exact .inl ⟨rfl, rfl, hz⟩
    · exact .inr ⟨z, hz, hi⟩
  case mpr =>
    rintro (⟨rfl, rfl, hy⟩ | ⟨z, hz, hi⟩)
    · exact ⟨y, hy, .inl ⟨rfl, rfl, rfl⟩⟩
    · exact ⟨z, hz, .inr hi⟩

theorem signedEscape_drop {r : Bytes} (hb : b ≠ 37) : SignedEscape (b :: r) ↔ SignedEscape r := by
  unfold SignedEscape
  simp only [infix_cons_iff (a := b), cons_prefix_cons, Ne.symm hb, false_and, false_or]

variable {bytes : Bytes}

theorem not_signedEscape_of_length (h : bytes.length < 3) : ¬ SignedEscape bytes := by
  rintro ⟨y, _, hi⟩
  have := hi.length_le
  rw [length_cons, length_cons, length_singleton] at this
  omega

theorem percentWith_some {pair : UInt8 → UInt8 → Option UInt8} {v : UInt8} (h : pair x y = some v) (r : Bytes) :
    percentWith pair (37 :: x :: y :: r) = v :: percentWith pair r := by
  rw [percentWith, if_pos rfl, h]

theorem percentWith_none {pair : UInt8 → UInt8 → Option UInt8} (h : b = 37 → pair x y = none) (r : Bytes) :
    percentWith pair (b :: x :: y :: r) = literal b :: percentWith pair (x :: y :: r) := by
  have hn : (if b = 37 then pair x y else none) = none := by
    split
    case isTrue hb => exact h hb
    case isFalse => rfl
  rw [percentWith, hn]

theorem hexPair_eq_none (hn : b = 37 → twoDigits x y = none)
    (hs : ¬ (b = 37 ∧ x = 43 ∧ (Upstream.hexDigit y).isSome)) : b = 37 → Upstream.hexPair x y = none := by
  intro hb
  rw [hexPair_eq]
  split
  case isTrue hx => exact not_isSome_iff_eq_none.mp fun hy => hs ⟨hb, hx, hy⟩
  case isFalse => exact hn hb

theorem percentWith_eq (h : ¬ SignedEscape bytes) :
    percentWith Upstream.hexPair bytes = percentWith twoDigits bytes := by
  induction bytes using percentWith.induct twoDigits
  case case1 b x y r v hm ih =>
    obtain ⟨rfl, hv⟩ := ite_none_right_eq_some.mp hm
    obtain ⟨hx, hx', hy⟩ := twoDigits_of_isSome (isSome_of_eq_some hv)
    rw [signedEscape_cons, signedEscape_drop hx, signedEscape_drop hy] at h
    have hp : Upstream.hexPair x y = some v := by rw [hexPair_eq, if_neg hx', hv]
    rw [percentWith_some hp, percentWith_some hv, ih fun hs => h (.inr hs)]
  case case2 b x y r hm ih =>
    rw [signedEscape_cons, not_or] at h
    have hn : b = 37 → twoDigits x y = none := fun hb => by simpa [hb] using hm
    rw [percentWith_none (hexPair_eq_none hn h.1), percentWith_none hn, ih h.2]
  case case3 bytes hs => rw [percentWith, percentWith] <;> exact hs

-- At a signed escape it puts out one byte, and the encoding has three there.
theorem percentWith_parts (h : SignedEscape bytes) :
    Parts (percentWith Upstream.hexPair bytes) (percentWith twoDigits bytes) := by
  induction bytes using percentWith.induct twoDigits
  case case1 b x y r v hm ih =>
    obtain ⟨rfl, hv⟩ := ite_none_right_eq_some.mp hm
    obtain ⟨hx, hx', hy⟩ := twoDigits_of_isSome (isSome_of_eq_some hv)
    rw [signedEscape_cons, signedEscape_drop hx, signedEscape_drop hy] at h
    have hp : Upstream.hexPair x y = some v := by rw [hexPair_eq, if_neg hx', hv]
    rw [percentWith_some hp, percentWith_some hv]
    rcases h with ⟨_, he, _⟩ | h
    · exact absurd he hx'
    · exact (ih h).cons v
  case case2 b x y r hm ih =>
    have hn : b = 37 → twoDigits x y = none := fun hb => by simpa [hb] using hm
    by_cases hs : b = 37 ∧ x = 43 ∧ (Upstream.hexDigit y).isSome
    case pos =>
      obtain ⟨rfl, rfl, hy⟩ := hs
      obtain ⟨v, hv⟩ := isSome_iff_exists.mp hy
      obtain ⟨hl, hne⟩ := hexDigit_lt hv
      have hp : Upstream.hexPair 43 y = some v := hv
      rw [percentWith_some hp, percentWith_none hn]
      exact ⟨[], v, 37, _, _, rfl, rfl, hl, by decide, hne⟩
    case neg =>
      rw [percentWith_none (hexPair_eq_none hn hs), percentWith_none hn]
      exact (ih ((signedEscape_cons.mp h).resolve_left hs)).cons _
  case case3 bytes hs =>
    refine absurd h (not_signedEscape_of_length ?_)
    match bytes with
    | [] | [_] | [_, _] => simp
    | b :: x :: y :: r => exact absurd rfl (hs b x y r)

theorem percentDecode_eq_iff (raw : Text) : percentDecode raw = decoded raw ↔ ¬ SignedEscape raw.utf8 := by
  constructor
  case mp => exact fun he hs => (percentWith_parts hs).fromUtf8Lossy_ne he
  case mpr => exact fun hs => congrArg Text.fromUtf8Lossy (percentWith_eq hs)

end Percent

section Query

-- An address with a query. A parameter has no ampersand in it, and it may be anything else.
structure Address where
  base : Text
  params : List Text
  base_mark : '?' ∉ base
  params_ne_nil : params ≠ []
  params_ampersand : ∀ p ∈ params, '&' ∉ p

def Address.url (a : Address) : Text :=
  a.base ++ '?' :: ['&'].intercalate a.params

def valueOf (key : Text) (p : Text) : Option Text :=
  Text.stripPrefix (key ++ ['=']) p

def Address.value (a : Address) (key : Text) : Option Text :=
  (a.params.findSome? (valueOf key)).map decoded

-- Every parameter before the one that is asked for can be read, and so can its own name and value.
def Address.Readable (a : Address) (key : Text) : Prop :=
  ∀ before p after value, a.params = before ++ p :: after → (∀ q ∈ before, valueOf key q = none) → valueOf key p = some value →
    '=' ∉ key ∧ (∀ q ∈ before, '=' ∈ q) ∧ ¬ SignedEscape value.utf8

theorem hit_query {key p text : Text} : Search.hit (Delimited.cut '=') (valueNamed key) p = some text ↔
      '=' ∉ key ∧ ∃ value, valueOf key p = some value ∧ percentDecode value = text := by
  unfold Search.hit valueNamed valueOf
  rw [bind_eq_some_iff]
  constructor
  case mp =>
    rintro ⟨⟨name, value⟩, hc, ht⟩
    obtain ⟨rfl, ht'⟩ := ite_none_right_eq_some.mp ht
    obtain ⟨rfl, hn⟩ := cut_eq_some_iff.mp hc
    refine ⟨hn, value, stripPrefix_eq_some.mpr ?_, some_inj.mp ht'⟩
    rw [append_assoc, singleton_append]
  case mpr =>
    rintro ⟨hn, value, hp, rfl⟩
    have he := stripPrefix_eq_some.mp hp
    rw [append_assoc, singleton_append] at he
    exact ⟨(key, value), cut_eq_some_iff.mpr ⟨he, hn⟩, if_pos rfl⟩

theorem hit_query_eq_none {key p : Text} (h : '=' ∈ key ∨ valueOf key p = none) :
    Search.hit (Delimited.cut '=') (valueNamed key) p = none := by
  rw [eq_none_iff_forall_ne_some]
  intro text ht
  obtain ⟨hn, value, hv, _⟩ := hit_query.mp ht
  rcases h with h | h
  · exact hn h
  · cases h.symm.trans hv

theorem cut_isSome_iff {p : Text} : (Delimited.cut '=' p).isSome ↔ '=' ∈ p := by
  rw [← not_iff_not, not_isSome_iff_eq_none, cut_eq_none_iff]

namespace Address

theorem queryValue_url (a : Address) (key : Text) :
    queryValue a.url key = Search.scan (Delimited.cut '=') (valueNamed key) a.params := by
  have hs : (['&'].intercalate a.params).splitOn '&' = a.params :=
    splitOn_intercalate '&' a.params_ampersand a.params_ne_nil
  rw [queryValue, url, cut_append a.base_mark, bind_some, hs]

theorem readable_iff {a : Address} {key p value : Text} {before after : List Text} (he : a.params = before ++ p :: after)
    (hb : ∀ q ∈ before, valueOf key q = none) (hv : valueOf key p = some value) :
    a.Readable key ↔ '=' ∉ key ∧ (∀ q ∈ before, '=' ∈ q) ∧ ¬ SignedEscape value.utf8 := by
  constructor
  case mp => exact fun h => h before p after value he hb hv
  case mpr =>
    intro h before' p' after' value' he' hb' hv'
    obtain ⟨rfl, rfl, rfl⟩ := Search.first_unique (he.symm.trans he') hb hv hb' hv'
    cases hv.symm.trans hv'
    exact h

def Finds (a : Address) (key : Text) : Prop :=
  queryValue a.url key = a.value key

theorem finds_iff_readable (a : Address) (key : Text) : a.Finds key ↔ a.Readable key := by
  rw [Finds, a.queryValue_url, value]
  rcases Search.first_or_none (f := valueOf key) a.params with hn | ⟨before, p, after, value, he, hb, hv⟩
  -- There is no such parameter, and none is found.
  · rw [Search.scan_eq_none fun p hp => hit_query_eq_none (.inr (hn p hp)), List.findSome?_eq_none_iff.mpr hn]
    refine iff_of_true rfl fun before p after value he _ hv => ?_
    cases (hn p (he ▸ mem_append_right before mem_cons_self)).symm.trans hv
  · rw [readable_iff he hb hv, he, Search.findSome?_first hb hv, map_some]
    by_cases hk : '=' ∈ key
    case pos =>
      rw [Search.scan_eq_none fun p _ => hit_query_eq_none (.inl hk)]
      exact iff_of_false nofun fun h => h.1 hk
    case neg =>
      rw [Search.scan_first (fun q hq => hit_query_eq_none (.inr (hb q hq))) (hit_query.mpr ⟨hk, value, hv, rfl⟩)]
      simp only [cut_isSome_iff]
      split
      case isTrue hr =>
        rw [some_inj, percentDecode_eq_iff]
        exact ⟨fun h => ⟨hk, hr, h⟩, fun h => h.2.2⟩
      case isFalse hr => exact iff_of_false nofun fun h => hr h.2.1

end Address

end Query

section Cookie

variable (libs : Libs)

-- The value of a cookie of the name that is asked for, if it looks like a token.
def tokenOf (part : Text) : Option Text :=
  (authorization part).filter (looksLikeJwt libs)

-- Every cookie before the one that is asked for has its name.
def Alone (header : Text) : Prop :=
  ∀ before part after token, header.splitOn ';' = before ++ part :: after → (∀ q ∈ before, tokenOf libs q = none) →
    tokenOf libs part = some token → ∀ q ∈ before, (authorization q).isSome

theorem hit_cookie : Search.hit authorization (Option.guard (looksLikeJwt libs)) = tokenOf libs := by
  funext part
  unfold Search.hit tokenOf
  cases authorization part <;> rfl

def FindsToken (header : Text) : Prop :=
  extractJwtFromCookie libs header = (header.splitOn ';').findSome? (tokenOf libs)

theorem findsToken_iff_alone (header : Text) : FindsToken libs header ↔ Alone libs header := by
  rw [FindsToken, extractJwtFromCookie, ← hit_cookie, Search.scan_eq_findSome?_iff, hit_cookie]
  rfl

end Cookie

-- When the two searches find what they are for.
theorem finds_iff (libs : Libs) (a : Address) (key header : Text) :
    (a.Finds key ↔ a.Readable key) ∧ (FindsToken libs header ↔ Alone libs header) :=
  ⟨a.finds_iff_readable key, findsToken_iff_alone libs header⟩

def bareParam : Address where
  base := "https://a".toList
  params := ["warp".toList, "token=x".toList]
  base_mark := by decide
  params_ne_nil := by decide
  params_ampersand := by decide

def otherCookie : Text :=
  "a=b; CF_Authorization=aaaaaaaaaaaaaaaa.bbbbbbbbbbbbbbbb.c".toList

theorem not_finds : ¬ bareParam.Finds "token".toList ∧ ¬ FindsToken (urlSafe fun _ => none) otherCookie := by
  constructor
  case left =>
    have hq : queryValue bareParam.url "token".toList = none := rfl
    have hv : bareParam.value "token".toList = some (decoded "x".toList) := rfl
    rw [Address.Finds, hq, hv]
    nofun
  case right =>
    unfold FindsToken
    decide

end Engine.ZeroTrust
