import SoildTunnel.App.Theorems.SocksUdp
import SoildTunnel.App.Theorems.TunDns
import SoildTunnel.Engine.Theorems.DnsMessage

-- What the bridge finds in a DNS response that is well-formed. It goes wrong at an answer whose name is given by
-- labels and a pointer after them.
namespace App.TunBridge

open Engine List Nat Option
open Kotlin
open Window (At)

-- There is a character for every byte sequence that is not empty.
structure LawfulPlatform extends Platform where
  decode_ne_nil : ∀ b, b ≠ [] → decode b ≠ []

-- The names in a response: the one that is asked for, and those of the answers.
structure Names where
  question : Dns.Name
  uncompressed : question.pointer = none
  owners : List Dns.Name
  owners_lt : owners.length < 2 ^ 16

def Names.answersStart (names : Names) : Nat :=
  12 + names.question.bytes.length + 4

def Names.domain (names : Names) (pf : Platform) : Text :=
  pf.lowercase (Text.joinToString DnsMap.dot (names.question.labels.map fun label => pf.decode label.val))

structure IsResponse (names : Names) (m : Dns.Message) : Prop where
  flags : 0x8000 ≤ m.flags.toNat
  question : ∃ qtype qclass, m.questions = [⟨names.question, qtype, qclass⟩]
  owners : m.answers.map Dns.Record.name = names.owners

def address? (r : Dns.Record) : Option Bytes :=
  if r.data.rtype = 1 ∧ r.data.bytes.length = 4 ∨ r.data.rtype = 28 ∧ r.data.bytes.length = 16 then
    some (hostAddress r.data.bytes)
  else
    none

def Mixed (name : Dns.Name) : Prop :=
  name.labels ≠ [] ∧ name.pointer ≠ none

section Labels

abbrev Label := { label : Bytes // label ≠ [] ∧ label.length ≤ 63 }

def wire (labels : List Label) : Bytes :=
  labels.flatMap fun label => label.val.length.toUInt8 :: label.val

variable {msg rest : Bytes} {pos : Nat}

theorem toNat_length (label : Label) : label.val.length.toUInt8.toNat = label.val.length :=
  Rust.Text.toNat_ofNat_of_lt (by have := label.property.2; omega)

theorem length_ne_zero (label : Label) : label.val.length.toUInt8 ≠ 0 := by
  intro h
  have hl := toNat_length label
  rw [h] at hl
  exact label.property.1 (length_eq_zero_iff.mp hl.symm)

theorem length_lt_pointer (label : Label) : ¬ 0xc0 ≤ label.val.length.toUInt8 := by
  rw [UInt8.le_iff_toNat_le, toNat_length]
  have := label.property.2
  simp
  omega

theorem at_cons {label : Label} {labels : List Label} (h : At msg pos (wire (label :: labels) ++ rest)) :
    At msg pos (label.val.length.toUInt8 :: (label.val ++ (wire labels ++ rest))) := by
  simpa [wire] using h

theorem length_wire_cons (label : Label) (labels : List Label) :
    (wire (label :: labels)).length = label.val.length + 1 + (wire labels).length := by
  simp [wire]
  omega

theorem skipLabels_end (pointers : Bool) (h : msg[pos]? = none) : skipLabels msg pointers pos = pos := by
  rw [skipLabels]
  split
  case h_1 => rfl
  case h_2 hl => cases h.symm.trans hl

theorem skipLabels_wire (pointers : Bool) (labels : List Label) (h : At msg pos (wire labels ++ rest)) :
    skipLabels msg pointers pos = skipLabels msg pointers (pos + (wire labels).length) := by
  induction labels generalizing pos
  case nil => rfl
  case cons label labels ih =>
    have h := at_cons h
    have hp : ¬ (pointers && decide (0xc0 ≤ label.val.length.toUInt8)) = true := by
      simp only [length_lt_pointer, decide_false, Bool.and_false, Bool.false_eq_true, not_false_eq_true]
    have hs : At msg (pos + label.val.length + 1) (wire labels ++ rest) := h.tail.skip.cast (by omega)
    rw [DnsEvent.skipLabels_eq pointers h.head, if_neg (length_ne_zero label), if_neg hp, toNat_length, ih hs,
      length_wire_cons]
    congr 1
    omega

def appended (pf : Platform) (domain : Text) (labels : List Label) : Text :=
  labels.foldl (fun domain label => (if domain = [] then domain else domain ++ [DnsMap.dot]) ++ pf.decode label.val) domain

theorem appendLabels_wire (pf : Platform) (domain : Text) (labels : List Label) (h : At msg pos (wire labels ++ rest)) :
    appendLabels pf msg domain pos = appendLabels pf msg (appended pf domain labels) (pos + (wire labels).length) := by
  induction labels generalizing pos domain
  case nil => rfl
  case cons label labels ih =>
    have h := at_cons h
    have hs : At msg (pos + label.val.length + 1) (wire labels ++ rest) := h.tail.skip.cast (by omega)
    have hl : ¬ msg.length < pos + 1 + label.val.length := by
      have := hs.le
      omega
    rw [DnsEvent.appendLabels_eq domain h.head, if_neg (length_ne_zero label), toNat_length, if_neg hl, h.tail.take,
      ih _ hs, length_wire_cons]
    congr 1
    omega

theorem appended_of_ne_nil (pf : LawfulPlatform) {domain : Text} (labels : List Label) (h : domain ≠ []) :
    appended pf.toPlatform domain labels =
      Text.joinToString DnsMap.dot (domain :: labels.map fun label => pf.decode label.val) := by
  induction labels generalizing domain
  case nil => simp [appended, Text.joinToString]
  case cons label labels ih =>
    have hn : appended pf.toPlatform domain (label :: labels) =
        appended pf.toPlatform (domain ++ [DnsMap.dot] ++ pf.decode label.val) labels := by
      simp [appended, h]
    rw [hn, ih (by simp)]
    cases labels
    case nil => simp [Text.joinToString, List.intercalate]
    case cons => simp [Text.joinToString, List.intercalate]

theorem appended_nil (pf : LawfulPlatform) (labels : List Label) :
    appended pf.toPlatform [] labels = Text.joinToString DnsMap.dot (labels.map fun label => pf.decode label.val) := by
  cases labels
  case nil => rfl
  case cons label labels => exact appended_of_ne_nil pf labels (pf.decode_ne_nil label.val label.property.1)

end Labels

section Owner

variable {msg rest : Bytes} {pos : Nat} {name : Dns.Name}

theorem bytes_plain (h : name.pointer = none) : name.bytes = wire name.labels ++ [0] := by
  simp [Dns.Name.bytes, wire, h]

theorem bytes_pointer {p : Fin (2 ^ 14)} (h : name.pointer = some p) :
    name.bytes = wire name.labels ++ [0xc0 ||| (p.val / 256).toUInt8, p.val.toUInt8] := by
  simp [Dns.Name.bytes, wire, h]

theorem le_pointer (b : UInt8) : 0xc0 ≤ 0xc0 ||| b := by
  rw [UInt8.le_iff_toNat_le, UInt8.toNat_or]
  exact left_le_or

theorem skipLabels_plain (pointers : Bool) (hp : name.pointer = none) (h : At msg pos (name.bytes ++ rest)) :
    skipLabels msg pointers pos = pos + name.bytes.length := by
  rw [bytes_plain hp, append_assoc] at h
  rw [skipLabels_wire pointers name.labels h, DnsEvent.skipLabels_eq pointers h.skip.head, if_pos rfl, bytes_plain hp]
  simp
  omega

def ownerEnd (msg : Bytes) (pos : Nat) : Nat :=
  if 0xc0 ≤ msg.getD pos 0 then pos + 2 else skipLabels msg false pos

theorem ownerEnd_label {label : Label} {labels : List Label} (h : At msg pos (wire (label :: labels) ++ rest)) :
    ownerEnd msg pos = skipLabels msg false pos := by
  have hb : msg.getD pos 0 = label.val.length.toUInt8 := by
    rw [getD_eq_getElem?_getD, (at_cons h).head, getD_some]
  unfold ownerEnd
  rw [hb, if_neg (length_lt_pointer label)]

theorem ownerEnd_of_at (hm : ¬ Mixed name) (h : At msg pos (name.bytes ++ rest)) :
    ownerEnd msg pos = pos + name.bytes.length := by
  cases hp : name.pointer
  case none =>
    have hs := skipLabels_plain false hp h
    rw [bytes_plain hp, append_assoc] at h
    cases hl : name.labels
    case nil =>
      rw [hl] at h
      have hb : msg.getD pos 0 = 0 := by
        rw [getD_eq_getElem?_getD, At.head h, getD_some]
      unfold ownerEnd
      rw [hb, if_neg (by decide), hs]
    case cons => exact (ownerEnd_label (hl ▸ h)).trans hs
  case some p =>
    have hl : name.labels = [] := by
      by_contra hl
      exact hm ⟨hl, by simp [hp]⟩
    rw [bytes_pointer hp, hl] at h ⊢
    have hb : msg.getD pos 0 = 0xc0 ||| (p.val / 256).toUInt8 := by
      rw [getD_eq_getElem?_getD, At.head h, getD_some]
    unfold ownerEnd
    rw [hb, if_pos (le_pointer _)]
    rfl

end Owner

section Answers

variable {msg rest : Bytes} {pos : Nat}

def answerAt (msg : Bytes) (n pos : Nat) : List Bytes :=
  match getShort msg pos, getShort msg (pos + 8) with
  | some type, some rdLen =>
    let pos := pos + 10
    let ip := hostAddress ((msg.drop pos).take rdLen)
    if (type = 1 ∧ rdLen = 4 ∨ type = 28 ∧ rdLen = 16) ∧ pos + rdLen ≤ msg.length then
      ip :: addresses msg n (pos + rdLen)
    else addresses msg n (pos + rdLen)
  | _, _ => []

theorem addresses_succ (n : Nat) : addresses msg (n + 1) pos =
    if msg.length < pos + 12 then addresses msg n pos else answerAt msg n (ownerEnd msg pos) := rfl

theorem addresses_short (n : Nat) (h : msg.length < pos + 12) : addresses msg n pos = [] := by
  induction n
  case zero => rfl
  case succ n ih => rw [addresses_succ, if_pos h, ih]

def fields (r : Dns.Record) : Bytes :=
  Octets.toBytes16 r.data.rtype ++ (Octets.toBytes16 r.rclass ++ (r.ttl.toList ++
    (Octets.toBytes16 r.data.bytes.length.toUInt16 ++ r.data.bytes)))

theorem bytes_eq (r : Dns.Record) : r.bytes = r.name.bytes ++ fields r := rfl

theorem length_fields (r : Dns.Record) : (fields r).length = 10 + r.data.bytes.length := by
  simp [fields, Octets.toBytes16]
  omega

theorem length_name_pos (name : Dns.Name) : 0 < name.bytes.length := by
  cases hp : name.pointer
  case none => simp [bytes_plain hp]
  case some => simp [bytes_pointer hp]

theorem answerAt_of_at (r : Dns.Record) (n : Nat) (h : At msg pos (fields r ++ rest)) :
    answerAt msg n pos = (address? r).toList ++ addresses msg n (pos + (fields r).length) := by
  have hr := h
  unfold fields at h
  simp only [append_assoc] at h
  have ht := getShort_of_at h
  have hl : getShort msg (pos + 8) = some r.data.bytes.length := by
    have hl := h.skip.skip.skip
    rw [Vector.length_toList] at hl
    rw [← Octets.toNat_toUInt16 r.length_lt]
    exact getShort_of_at hl
  have hd : At msg (pos + 10) (r.data.bytes ++ rest) := by
    have hd := h.skip.skip.skip.skip
    rw [Vector.length_toList] at hd
    exact hd
  have hn : pos + 10 + r.data.bytes.length = pos + (fields r).length := by
    rw [length_fields]
    omega
  have h1 : r.data.rtype.toNat = 1 ↔ r.data.rtype = 1 := UInt16.toNat_inj (b := 1)
  have h28 : r.data.rtype.toNat = 28 ↔ r.data.rtype = 28 := UInt16.toNat_inj (b := 28)
  unfold answerAt address?
  simp only [ht, hl, hd.take, h1, h28, hn, hr.skip.le, and_true]
  split
  case isTrue => rfl
  case isFalse => rfl

theorem addresses_of_at (answers : List Dns.Record) (hm : ∀ r ∈ answers, ¬ Mixed r.name) (k : Nat)
    (h : At msg pos (answers.flatMap Dns.Record.bytes ++ rest)) :
    addresses msg (answers.length + k) pos =
      answers.filterMap address? ++ addresses msg k (pos + (answers.flatMap Dns.Record.bytes).length) := by
  induction answers generalizing pos
  case nil => simp
  case cons r answers ih =>
    rw [flatMap_cons, bytes_eq, append_assoc, append_assoc] at h
    have hl := h.length
    simp only [length_append, length_fields] at hl
    have hp := length_name_pos r.name
    by_cases hs : msg.length < pos + 12
    case pos =>
      -- Only a record with an empty name and no data is as short as this, and only at the end.
      have ha : answers = [] := by
        cases answers
        case nil => rfl
        case cons r' answers =>
          rw [flatMap_cons, length_append, bytes_eq, length_append, length_fields] at hl
          omega
      have hd : address? r = none := if_neg (by omega)
      rw [addresses_short _ hs, addresses_short _ (by omega)]
      simp [ha, hd]
    case neg =>
      have hn : ¬ Mixed r.name := hm r mem_cons_self
      rw [show (r :: answers).length + k = answers.length + k + 1 by simp; omega, addresses_succ, if_neg hs,
        ownerEnd_of_at hn h, answerAt_of_at r _ h.skip, ih (fun r' hr => hm r' (mem_cons_of_mem r hr)) h.skip.skip]
      have hc : pos + r.name.bytes.length + (fields r).length + (answers.flatMap Dns.Record.bytes).length =
          pos + ((r :: answers).flatMap Dns.Record.bytes).length := by
        rw [flatMap_cons, bytes_eq, length_append, length_append]
        omega
      rw [hc]
      cases hr : address? r
      case none => simp [hr]
      case some => simp [hr]

end Answers

section Response

variable {names : Names} {m : Dns.Message} (pf : LawfulPlatform)

theorem at_question (h : IsResponse names m) : ∃ tail : Bytes, tail.length = 4 ∧
    At m.bytes 12 (names.question.bytes ++ (tail ++ (m.answers.flatMap Dns.Record.bytes ++ m.rest))) := by
  obtain ⟨qtype, qclass, hq⟩ := h.question
  have ha := m.at_questions
  rw [hq] at ha
  refine ⟨Octets.toBytes16 qtype ++ Octets.toBytes16 qclass, rfl, ?_⟩
  simpa [Dns.Question.bytes] using ha

theorem extractDomainName_response (h : IsResponse names m) :
    extractDomainName pf.toPlatform m.bytes = some (names.domain pf.toPlatform) := by
  obtain ⟨tail, -, ha⟩ := at_question h
  rw [bytes_plain names.uncompressed, append_assoc] at ha
  rw [extractDomainName, if_neg m.bytes_length, appendLabels_wire _ _ _ ha,
    DnsEvent.appendLabels_eq _ ha.skip.head, if_pos rfl, appended_nil]
  rfl

theorem at_answers (h : IsResponse names m) :
    At m.bytes names.answersStart (m.answers.flatMap Dns.Record.bytes ++ m.rest) := by
  obtain ⟨tail, hl, ha⟩ := at_question h
  have hs := ha.skip.skip
  rw [hl] at hs
  exact hs

theorem sniffDnsResponse_response (h : IsResponse names m) : sniffDnsResponse pf.toPlatform m.bytes =
    (addresses m.bytes m.answers.length names.answersStart).map (·, names.domain pf.toPlatform) := by
  obtain ⟨tail, -, ha⟩ := at_question h
  have hq : getShort m.bytes 4 = some 1 := by
    have hq : getShort m.bytes 4 = some _ := getShort_of_at (At.start m.bytes).skip.skip
    obtain ⟨_, _, he⟩ := h.question
    rwa [he] at hq
  have hn : getShort m.bytes 6 = some m.answers.length := by
    rw [← Octets.toNat_toUInt16 m.answers_lt]
    exact getShort_of_at (At.start m.bytes).skip.skip.skip
  have hf : getShort m.bytes 2 = some m.flags.toNat := getShort_of_at (At.start m.bytes).skip
  have hk : skipQuestions m.bytes 1 12 = names.answersStart := by
    change skipLabels m.bytes true 12 + 4 = _
    rw [skipLabels_plain true names.uncompressed ha]
    rfl
  unfold sniffDnsResponse
  rw [if_neg m.bytes_length, hf, hq, hn, extractDomainName_response pf h]
  dsimp only
  rw [hk]
  split
  case isFalse => rfl
  case isTrue hc =>
    have hz : m.answers.length = 0 := by
      have := h.flags
      omega
    rw [hz]
    rfl

end Response

section Agree

structure Agree (msg msg' : Bytes) (pos : Nat) : Prop where
  length : msg.length = msg'.length
  get : ∀ i, pos ≤ i → msg[i]? = msg'[i]?

namespace Agree

variable {msg msg' rest : Bytes} {pos pos' : Nat}

theorem of_at (h : At msg pos rest) (h' : At msg' pos rest) : Agree msg msg' pos where
  length := h.length.trans h'.length.symm
  get i hi := by
    obtain ⟨j, rfl⟩ := Nat.exists_eq_add_of_le hi
    rw [h.getElem?, h'.getElem?]

theorem later (h : Agree msg msg' pos) (hp : pos ≤ pos') : Agree msg msg' pos' where
  length := h.length
  get i hi := h.get i (hp.trans hi)

theorem drop (h : Agree msg msg' pos) : msg.drop pos = msg'.drop pos := by
  apply ext_getElem?
  intro i
  rw [List.getElem?_drop, List.getElem?_drop, h.get _ (le_add_right pos i)]

theorem getShort (h : Agree msg msg' pos) : getShort msg pos = getShort msg' pos := by
  unfold TunBridge.getShort
  rw [h.get pos le_rfl, h.get (pos + 1) (le_succ pos)]

theorem skipLabels (pointers : Bool) (h : Agree msg msg' pos) :
    skipLabels msg pointers pos = skipLabels msg' pointers pos ∧ pos ≤ skipLabels msg pointers pos := by
  induction pos using TunBridge.skipLabels.induct msg pointers
  case case1 pos hn =>
    have hn' : msg'[pos]? = none := h.get pos le_rfl ▸ hn
    rw [skipLabels_end pointers hn, skipLabels_end pointers hn']
    exact ⟨rfl, le_rfl⟩
  case case2 pos hl =>
    have hl' : msg'[pos]? = some 0 := h.get pos le_rfl ▸ hl
    rw [DnsEvent.skipLabels_eq pointers hl, DnsEvent.skipLabels_eq pointers hl']
    simp
  case case3 pos l hl hz hp =>
    have hl' : msg'[pos]? = some l := h.get pos le_rfl ▸ hl
    rw [DnsEvent.skipLabels_eq pointers hl, DnsEvent.skipLabels_eq pointers hl', if_neg hz, if_pos hp, if_neg hz,
      if_pos hp]
    exact ⟨rfl, le_add_right pos 2⟩
  case case4 pos l hl hz hp ih =>
    have hl' : msg'[pos]? = some l := h.get pos le_rfl ▸ hl
    obtain ⟨he, hle⟩ := ih (h.later (by omega))
    rw [DnsEvent.skipLabels_eq pointers hl, DnsEvent.skipLabels_eq pointers hl', if_neg hz, if_neg hp, if_neg hz,
      if_neg hp]
    exact ⟨he, by omega⟩

theorem ownerEnd (h : Agree msg msg' pos) : ownerEnd msg pos = ownerEnd msg' pos ∧ pos ≤ ownerEnd msg pos := by
  unfold TunBridge.ownerEnd
  rw [getD_eq_getElem?_getD, getD_eq_getElem?_getD, h.get pos le_rfl]
  split
  case isTrue => exact ⟨rfl, le_add_right pos 2⟩
  case isFalse => exact h.skipLabels false

theorem answerAt {n : Nat} (ha : ∀ pos, Agree msg msg' pos → addresses msg n pos = addresses msg' n pos)
    (h : Agree msg msg' pos) : answerAt msg n pos = answerAt msg' n pos := by
  have h8 := (h.later (le_add_right pos 8)).getShort
  have h10 : Agree msg msg' (pos + 10) := h.later (le_add_right pos 10)
  unfold TunBridge.answerAt
  rw [h.getShort, h8, h.length]
  split
  case h_2 => rfl
  case h_1 rdLen _ _ =>
    dsimp only
    rw [h10.drop, ha _ (h10.later (le_add_right _ rdLen))]

theorem addresses (n : Nat) (h : Agree msg msg' pos) : addresses msg n pos = addresses msg' n pos := by
  induction n generalizing pos
  case zero => rfl
  case succ n ih =>
    obtain ⟨ho, hle⟩ := h.ownerEnd
    rw [addresses_succ, addresses_succ, h.length, ih h, answerAt (fun _ => ih) (h.later hle), ho]

end Agree

end Agree

section Mixed

variable {name : Dns.Name}

-- The first byte of the pointer is taken for a length, and leads far past the record.
theorem ownerEnd_mixed (hm : Mixed name) : ∃ jump, 191 ≤ jump ∧ ∀ msg pos rest, At msg pos (name.bytes ++ rest) →
    ownerEnd msg pos = skipLabels msg false (pos + name.bytes.length + jump) := by
  obtain ⟨hl, hp⟩ := hm
  obtain ⟨p, hp⟩ := ne_none_iff_exists'.mp hp
  have hle : 192 ≤ (0xc0 ||| (p.val / 256).toUInt8).toNat := UInt8.le_iff_toNat_le.mp (le_pointer _)
  refine ⟨(0xc0 ||| (p.val / 256).toUInt8).toNat - 1, by omega, fun msg pos rest h => ?_⟩
  rw [bytes_pointer hp, append_assoc] at h
  have hz : 0xc0 ||| (p.val / 256).toUInt8 ≠ 0 := by
    intro hz
    rw [hz] at hle
    exact absurd hle (by decide)
  obtain ⟨label, labels, hc⟩ := exists_cons_of_ne_nil hl
  have ho : ownerEnd msg pos = skipLabels msg false pos := ownerEnd_label (hc ▸ h)
  rw [ho, skipLabels_wire false name.labels h, DnsEvent.skipLabels_eq false h.skip.head, if_neg hz, if_neg (by simp),
    bytes_pointer hp, length_append]
  congr 1
  simp only [length_cons, length_nil]
  omega

theorem zero_ne_https : (0 : UInt16) ≠ Dns.RR_HTTPS := by decide

theorem one_ne_https : (1 : UInt16) ≠ Dns.RR_HTTPS := by decide

theorem four_lt : 4 < 2 ^ 16 := by decide

def blank (name : Dns.Name) : Dns.Record :=
  ⟨name, 1, Vector.replicate 4 0, .other 0 [] zero_ne_https, Nat.two_pow_pos 16⟩

def located (name : Dns.Name) (a : UInt8) : Dns.Record :=
  ⟨name, 1, Vector.replicate 4 0, .other 1 [a, 0, 0, 1] one_ne_https, four_lt⟩

theorem address?_blank (name : Dns.Name) : address? (blank name) = none := rfl

theorem address?_located (name : Dns.Name) (a : UInt8) : address? (located name a) = some (hostAddress [a, 0, 0, 1]) := rfl

theorem filterMap_blank (l : List Dns.Name) : (l.map blank).filterMap address? = [] := by
  rw [filterMap_map]
  exact filterMap_eq_nil_iff.mpr fun name _ => address?_blank name

def response (names : Names) (before after : List Dns.Name) (h : names.owners = before ++ name :: after) (a : UInt8) :
    Dns.Message where
  id := 0
  flags := 0x8180
  questions := [⟨names.question, 1, 1⟩]
  answers := before.map blank ++ located name a :: after.map blank
  authority := 0
  additional := 0
  rest := []
  questions_lt := Nat.one_lt_two_pow (by decide)
  answers_lt := by
    have hl := names.owners_lt
    rw [h] at hl
    simpa using hl

variable {names : Names} {before after : List Dns.Name} (h : names.owners = before ++ name :: after)

theorem isResponse_response (a : UInt8) : IsResponse names (response names before after h a) where
  flags := by
    change 0x8000 ≤ (0x8180 : UInt16).toNat
    decide
  question := ⟨1, 1, rfl⟩
  owners := by
    rw [h]
    simp [response, blank, located, Function.comp_def]

theorem filterMap_response (a : UInt8) :
    (response names before after h a).answers.filterMap address? = [hostAddress [a, 0, 0, 1]] := by
  change (before.map blank ++ located name a :: after.map blank).filterMap address? = _
  rw [filterMap_append, filterMap_blank, filterMap_cons_some (address?_located name a), filterMap_blank]
  rfl

theorem addresses_response (hb : ∀ n ∈ before, ¬ Mixed n) (hm : Mixed name) (a b : UInt8) :
    addresses (response names before after h a).bytes names.owners.length names.answersStart =
      addresses (response names before after h b).bytes names.owners.length names.answersStart := by
  obtain ⟨jump, hj, ho⟩ := ownerEnd_mixed hm
  let start := names.answersStart + ((before.map blank).flatMap Dns.Record.bytes).length
  let tail := (after.map blank).flatMap Dns.Record.bytes ++ []
  have hat (a : UInt8) : At (response names before after h a).bytes names.answersStart
      ((before.map blank).flatMap Dns.Record.bytes ++ (name.bytes ++ (fields (located name a) ++ tail))) := by
    have hat := at_answers (isResponse_response h a)
    simp only [response, flatMap_append, flatMap_cons, bytes_eq, append_assoc] at hat
    exact hat
  have hf (a : UInt8) : (fields (located name a)).length = 14 := length_fields _
  have hstep (a : UInt8) : addresses (response names before after h a).bytes names.owners.length names.answersStart =
      answerAt (response names before after h a).bytes after.length
        (skipLabels (response names before after h a).bytes false (start + name.bytes.length + jump)) := by
    have hs : At (response names before after h a).bytes start _ := (hat a).skip
    have hl := hs.length
    simp only [length_append, hf] at hl
    have hn : ∀ r ∈ before.map blank, ¬ Mixed r.name := by
      intro r hr
      obtain ⟨n, hn, rfl⟩ := mem_map.mp hr
      exact hb n hn
    have hc : names.owners.length = (before.map blank).length + (after.length + 1) := by simp [h]
    rw [hc, addresses_of_at _ hn _ (hat a), filterMap_blank, nil_append, addresses_succ,
      if_neg (by omega), ho _ _ _ hs]
  have hagree : Agree (response names before after h a).bytes (response names before after h b).bytes
      (start + name.bytes.length + 14) :=
    .of_at ((hf a) ▸ (hat a).skip.skip.skip) ((hf b) ▸ (hat b).skip.skip.skip)
  have hq := hagree.later (show _ ≤ start + name.bytes.length + jump by omega)
  obtain ⟨he, hle⟩ := hq.skipLabels false
  rw [hstep a, hstep b, Agree.answerAt (fun _ => Agree.addresses after.length) (hq.later hle), he]

end Mixed

theorem exists_first_mixed {owners : List Dns.Name} (h : ¬ ∀ name ∈ owners, ¬ Mixed name) :
    ∃ before name after, owners = before ++ name :: after ∧ Mixed name ∧ ∀ n ∈ before, ¬ Mixed n := by
  induction owners
  case nil => simp at h
  case cons name owners ih =>
    by_cases hm : Mixed name
    case pos => exact ⟨[], name, owners, rfl, hm, by simp⟩
    case neg =>
      obtain ⟨before, n, after, rfl, hn, hb⟩ := ih (by simpa [hm] using h)
      exact ⟨name :: before, n, after, rfl, hn, by simpa using ⟨hm, hb⟩⟩

theorem sniffDnsResponse_iff (pf : LawfulPlatform) (names : Names) :
    (∀ m, IsResponse names m → sniffDnsResponse pf.toPlatform m.bytes =
      (m.answers.filterMap address?).map (·, names.domain pf.toPlatform)) ↔
    ∀ name ∈ names.owners, ¬ Mixed name := by
  constructor
  case mp =>
    intro h
    by_contra hm
    obtain ⟨before, name, after, he, hm, hb⟩ := exists_first_mixed hm
    have ha (a : UInt8) : (addresses (response names before after he a).bytes names.owners.length names.answersStart).map
        (·, names.domain pf.toPlatform) = [(hostAddress [a, 0, 0, 1], names.domain pf.toPlatform)] := by
      have hr := isResponse_response he a
      have hs := h _ hr
      rw [sniffDnsResponse_response pf hr] at hs
      have hl : (response names before after he a).answers.length = names.owners.length := by
        rw [← hr.owners, length_map]
      rw [hl] at hs
      rw [hs, filterMap_response]
      rfl
    have h01 := (ha 0).symm.trans ((congrArg _ (addresses_response he hb hm 0 1)).trans (ha 1))
    simp [hostAddress] at h01
  case mpr =>
    intro h m hm
    have hn : ∀ r ∈ m.answers, ¬ Mixed r.name := by
      intro r hr
      exact h r.name (hm.owners ▸ mem_map_of_mem hr)
    have ha := addresses_of_at m.answers hn 0 (at_answers hm)
    rw [sniffDnsResponse_response pf hm]
    rw [add_zero] at ha
    rw [ha]
    simp [addresses]

-- The question is for `a`, and the answer is for `c.a`, by a pointer to the question.
theorem letter_lawful (b : UInt8) : [b] ≠ [] ∧ [b].length ≤ 63 := ⟨cons_ne_nil b [], by simp⟩

theorem one_lt_owners : 1 < 2 ^ 16 := by decide

theorem pointer_lt : 12 < 2 ^ 14 := by decide

def subdomain : Names where
  question := ⟨[⟨[97], letter_lawful 97⟩], none⟩
  uncompressed := rfl
  owners := [⟨[⟨[99], letter_lawful 99⟩], some ⟨12, pointer_lt⟩⟩]
  owners_lt := one_lt_owners

def asciiLawful : LawfulPlatform where
  toPlatform := DnsEvent.asciiPlatform
  decode_ne_nil b h := by simpa [DnsEvent.asciiPlatform] using h

theorem sniffDnsResponse_subdomain :
    let m := response subdomain [] [] rfl 1
    IsResponse subdomain m ∧ m.answers.filterMap address? = [[1, 0, 0, 1]] ∧
      sniffDnsResponse asciiLawful.toPlatform m.bytes = [] := by
  intro m
  have hr : IsResponse subdomain m := isResponse_response rfl 1
  refine ⟨hr, rfl, ?_⟩
  have ho : ownerEnd m.bytes 19 = 214 := by
    have h19 : m.bytes[19]? = some 1 := rfl
    have h21 : m.bytes[21]? = some 0xc0 := rfl
    have h214 : m.bytes[214]? = none := rfl
    have hs : skipLabels m.bytes false 21 = 214 := (DnsEvent.skipLabels_eq false h21).trans (skipLabels_end false h214)
    exact (DnsEvent.skipLabels_eq false h19).trans hs
  have ha : addresses m.bytes 1 19 = [] := by
    rw [addresses_succ, ho]
    rfl
  rw [sniffDnsResponse_response asciiLawful hr]
  change (addresses m.bytes 1 19).map _ = []
  rw [ha]
  rfl

end App.TunBridge
