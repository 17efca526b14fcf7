import SoildTunnel.Engine.Theorems.DnsCode
import SoildTunnel.Lib.Window
import SoildTunnel.Rust.Utf8

-- What the readers of DNS messages find in a message that is well-formed.
namespace Engine.Dns

open Rust
open Window (At)

-- A name ends, or goes on where a pointer says.
structure Name where
  labels : List { label : Bytes // label ≠ [] ∧ label.length ≤ 63 }
  pointer : Option (Fin (2 ^ 14))

namespace Name

def bytes (n : Name) : Bytes :=
  n.labels.flatMap (fun label => label.val.length.toUInt8 :: label.val) ++
    match n.pointer with
    | none => [0x00]
    | some p => [0xc0 ||| (p.val / 256).toUInt8, p.val.toUInt8]

theorem pointer_mask (x : UInt8) : (0xc0 ||| x) &&& 0xc0 = 0xc0 := by
  apply UInt8.toBitVec_inj.mp
  ext i hi
  simp
  intro h
  exact .inl h

theorem length_mask {n : Nat} (h : n ≤ 63) : n.toUInt8 &&& 0xc0 ≠ 0xc0 := by
  have hs : ∀ n : Fin 64, n.val.toUInt8 &&& 0xc0 ≠ 0xc0 := by decide
  exact hs ⟨n, by omega⟩

variable {msg rest : Bytes} {pos : Nat}

theorem skipName_of_at (n : Name) (h : At msg pos (n.bytes ++ rest)) : skipName msg pos = some (pos + n.bytes.length) := by
  obtain ⟨labels, pointer⟩ := n
  unfold bytes at *
  dsimp only at *
  induction labels generalizing pos
  case nil =>
    rw [skipName_bind]
    cases pointer
    case none => simp [h.head]
    case some p => simp [h.head, pointer_mask]
  case cons label labels ih =>
    obtain ⟨hn, hl⟩ := label.property
    have hlen : label.val.length.toUInt8.toNat = label.val.length := Text.toNat_ofNat_of_lt (by omega)
    have hz : label.val.length.toUInt8 ≠ 0 := by
      intro h0
      rw [h0] at hlen
      exact hn (List.length_eq_zero_iff.mp hlen.symm)
    rw [List.flatMap_cons, List.cons_append, List.cons_append, List.cons_append, List.append_assoc,
      List.append_assoc, ← List.append_assoc _ _ rest] at h
    rw [skipName_bind, h.head, Option.bind_some, if_neg (length_mask hl), if_neg hz, hlen, ih h.tail.skip]
    simp
    omega

end Name

structure Question where
  name : Name
  qtype : UInt16
  qclass : UInt16

def Question.bytes (q : Question) : Bytes :=
  q.name.bytes ++ (Octets.toBytes16 q.qtype ++ Octets.toBytes16 q.qclass)

structure Param where
  key : UInt16
  value : Bytes
  length_lt : value.length < 2 ^ 16

def Param.bytes (p : Param) : Bytes :=
  Octets.toBytes16 p.key ++ (Octets.toBytes16 p.value.length.toUInt16 ++ p.value)

structure Service where
  priority : UInt16
  target : Name
  params : List Param

namespace Service

def bytes (s : Service) : Bytes :=
  Octets.toBytes16 s.priority ++ (s.target.bytes ++ s.params.flatMap Param.bytes)

def ech (s : Service) : Option Bytes :=
  (s.params.find? fun p => p.key = SVCPARAM_ECH).map Param.value

end Service

inductive Data
  | https (service : Service)
  | other (rtype : UInt16) (bytes : Bytes) (ne : rtype ≠ RR_HTTPS)

namespace Data

def rtype : Data → UInt16
  | https _ => RR_HTTPS
  | other rtype _ _ => rtype

def bytes : Data → Bytes
  | https service => service.bytes
  | other _ bytes _ => bytes

def ech : Data → Option Bytes
  | https service => service.ech
  | other .. => none

def address (d : Data) : Option IpAddr :=
  match d.bytes with
  | [a, b, c, e] => if d.rtype = QTYPE_A then some (.v4 (.new a b c e)) else none
  | _ => none

end Data

structure Record where
  name : Name
  rclass : UInt16
  ttl : Vector UInt8 4
  data : Data
  length_lt : data.bytes.length < 2 ^ 16

def Record.bytes (r : Record) : Bytes :=
  r.name.bytes ++ (Octets.toBytes16 r.data.rtype ++ (Octets.toBytes16 r.rclass ++ (r.ttl.toList ++
    (Octets.toBytes16 r.data.bytes.length.toUInt16 ++ r.data.bytes))))

-- After the answers come records that nobody reads.
structure Message where
  id : UInt16
  flags : UInt16
  questions : List Question
  answers : List Record
  authority : UInt16
  additional : UInt16
  rest : Bytes
  questions_lt : questions.length < 2 ^ 16
  answers_lt : answers.length < 2 ^ 16

def Message.bytes (m : Message) : Bytes :=
  Octets.toBytes16 m.id ++ (Octets.toBytes16 m.flags ++ (Octets.toBytes16 m.questions.length.toUInt16 ++
    (Octets.toBytes16 m.answers.length.toUInt16 ++ (Octets.toBytes16 m.authority ++ (Octets.toBytes16 m.additional ++
      (m.questions.flatMap Question.bytes ++ (m.answers.flatMap Record.bytes ++ m.rest)))))))

section Readers

variable {msg rest : Bytes} {pos : Nat}

theorem u16At_of_at {n : UInt16} (h : At msg pos (Octets.toBytes16 n ++ rest)) : u16At msg pos = n.toNat :=
  Window.bigEndian_of_at h

theorem skipQuestions_of_at (questions : List Question) (h : At msg pos (questions.flatMap Question.bytes ++ rest)) :
    skipQuestions msg questions.length pos = some (pos + (questions.flatMap Question.bytes).length) := by
  induction questions generalizing pos
  case nil => rfl
  case cons q questions ih =>
    rw [List.flatMap_cons, Question.bytes] at h
    simp only [List.append_assoc] at h
    have hq : At msg (pos + q.name.bytes.length + 4) (questions.flatMap Question.bytes ++ rest) := h.skip.skip.skip
    rw [List.length_cons, skipQuestions, q.name.skipName_of_at h, Option.bind_some, ih hq]
    simp [Question.bytes, Octets.toBytes16]
    omega

theorem svcparamsEch_of_at (params : List Param) (h : At msg pos (params.flatMap Param.bytes ++ rest)) :
    svcparamsEch msg (pos + (params.flatMap Param.bytes).length) pos =
      (params.find? fun p => p.key = SVCPARAM_ECH).map Param.value := by
  induction params generalizing pos
  case nil =>
    rw [svcparamsEch_eq, if_neg (by simp)]
    rfl
  case cons p params ih =>
    rw [List.flatMap_cons, Param.bytes] at h
    simp only [List.append_assoc] at h
    have hk : u16At msg pos = p.key.toNat := u16At_of_at h
    have hl : u16At msg (pos + 2) = p.value.length := (u16At_of_at h.skip).trans (Octets.toNat_toUInt16 p.length_lt)
    have hv : At msg (pos + 4) (p.value ++ (params.flatMap Param.bytes ++ rest)) := h.skip.skip
    have hlen : ((p :: params).flatMap Param.bytes).length = 4 + p.value.length + (params.flatMap Param.bytes).length := by
      simp [Param.bytes, Octets.toBytes16]
      omega
    rw [svcparamsEch_eq, hlen, hk, hl, if_pos (by omega), if_pos (by omega), hv.take]
    by_cases he : p.key = SVCPARAM_ECH
    case pos =>
      rw [if_pos (congrArg UInt16.toNat he), List.find?_cons_of_pos (by simpa using he)]
      rfl
    case neg =>
      have hs : pos + (4 + p.value.length + (params.flatMap Param.bytes).length) =
          pos + 4 + p.value.length + (params.flatMap Param.bytes).length := by omega
      rw [if_neg (mt UInt16.toNat_inj.mp he), List.find?_cons_of_neg (by simpa using he), hs]
      exact ih hv.skip

theorem readEch_of_at (d : Data) (h : At msg pos (d.bytes ++ rest)) :
    readEch msg d.rtype.toNat pos d.bytes.length = d.ech := by
  cases d
  case other rtype bytes ne => exact if_neg (mt UInt16.toNat_inj.mp ne)
  case https s =>
    change At msg pos (s.bytes ++ rest) at h
    rw [Service.bytes] at h
    simp only [List.append_assoc] at h
    have hn : skipName msg (pos + 2) = some (pos + 2 + s.target.bytes.length) := s.target.skipName_of_at h.skip
    have hlen : pos + s.bytes.length = pos + 2 + s.target.bytes.length + (s.params.flatMap Param.bytes).length := by
      simp [Service.bytes, Octets.toBytes16]
      omega
    rw [readEch]
    change (if RR_HTTPS.toNat = RR_HTTPS.toNat then parseSvcparamsEch msg pos s.bytes.length else none) = _
    rw [if_pos rfl, parseSvcparamsEch, hlen, if_neg (by omega), hn, Option.bind_some]
    exact svcparamsEch_of_at s.params h.skip.skip

theorem readAddress_of_at (d : Data) (h : At msg pos (d.bytes ++ rest)) :
    readAddress msg d.rtype.toNat pos d.bytes.length = d.address := by
  have ht : d.rtype.toNat = 1 ↔ d.rtype = QTYPE_A := UInt16.toNat_inj (b := QTYPE_A)
  unfold Data.address
  split
  case h_1 a b c e hd =>
    rw [hd] at h
    have h0 : msg.getD pos 0 = a := by rw [List.getD_eq_getElem?_getD, h.head, Option.getD_some]
    have h1 : msg.getD (pos + 1) 0 = b := by rw [List.getD_eq_getElem?_getD, h.getElem? 1]; rfl
    have h2 : msg.getD (pos + 2) 0 = c := by rw [List.getD_eq_getElem?_getD, h.getElem? 2]; rfl
    have h3 : msg.getD (pos + 3) 0 = e := by rw [List.getD_eq_getElem?_getD, h.getElem? 3]; rfl
    simp only [readAddress, ht, hd, h0, h1, h2, h3, List.length_cons, List.length_nil, and_true]
  case h_2 hd =>
    apply if_neg
    rintro ⟨-, hl⟩
    match hb : d.bytes with
    | [a, b, c, e] => exact hd a b c e hb
    | [] | [_] | [_, _] | [_, _, _] | _ :: _ :: _ :: _ :: _ :: _ => simp [hb] at hl

theorem firstRecord_of_at {α : Type} {read : Nat → Nat → Nat → Option α} {value : Data → Option α}
    (hr : ∀ (d : Data) (pos : Nat) (rest : Bytes), At msg pos (d.bytes ++ rest) →
      read d.rtype.toNat pos d.bytes.length = value d)
    (answers : List Record) (h : At msg pos (answers.flatMap Record.bytes ++ rest)) :
    firstRecord msg read answers.length pos = answers.findSome? fun r => value r.data := by
  induction answers generalizing pos
  case nil => rfl
  case cons r answers ih =>
    rw [List.flatMap_cons, Record.bytes] at h
    simp only [List.append_assoc] at h
    have hn := r.name.skipName_of_at h
    have ht : u16At msg (pos + r.name.bytes.length) = r.data.rtype.toNat := u16At_of_at h.skip
    have hl : u16At msg (pos + r.name.bytes.length + 8) = r.data.bytes.length := by
      have hlen := h.skip.skip.skip.skip
      rw [Vector.length_toList] at hlen
      exact (u16At_of_at hlen).trans (Octets.toNat_toUInt16 r.length_lt)
    have hd : At msg (pos + r.name.bytes.length + 10) (r.data.bytes ++ (answers.flatMap Record.bytes ++ rest)) := by
      have hlen := h.skip.skip.skip.skip.skip
      rw [Vector.length_toList] at hlen
      exact hlen
    rw [List.length_cons, firstRecord_succ, hn, Option.bind_some, ht, hl, if_pos hd.le, if_pos hd.skip.le, hr _ _ _ hd,
      ih hd.skip, List.findSome?_cons]
    cases value r.data <;> rfl

end Readers

namespace Message

variable (m : Message)

theorem bytes_length : ¬ m.bytes.length < 12 := by
  simp [bytes, Octets.toBytes16]

theorem at_questions : At m.bytes 12 (m.questions.flatMap Question.bytes ++ (m.answers.flatMap Record.bytes ++ m.rest)) :=
  (At.start m.bytes).skip.skip.skip.skip.skip.skip

theorem questions_count : u16At m.bytes 4 = m.questions.length :=
  (u16At_of_at (At.start m.bytes).skip.skip).trans (Octets.toNat_toUInt16 m.questions_lt)

theorem answers_count : u16At m.bytes 6 = m.answers.length :=
  (u16At_of_at (At.start m.bytes).skip.skip.skip).trans (Octets.toNat_toUInt16 m.answers_lt)

theorem parseDnsA_bytes : parseDnsA m.bytes = m.answers.findSome? fun r => r.data.address := by
  rw [parseDnsA, if_neg m.bytes_length, m.questions_count, m.answers_count, skipQuestions_of_at _ m.at_questions,
    Option.bind_some, firstAddress_eq]
  exact firstRecord_of_at (fun d _ _ => readAddress_of_at d) m.answers m.at_questions.skip

theorem parseHttpsEch_bytes : parseHttpsEch m.bytes = m.answers.findSome? fun r => r.data.ech := by
  rw [parseHttpsEch, if_neg m.bytes_length, m.questions_count, m.answers_count, skipQuestions_of_at _ m.at_questions,
    Option.bind_some]
  exact firstRecord_of_at (fun d _ _ => readEch_of_at d) m.answers m.at_questions.skip

end Message

namespace Code

open Checked
open Masque (Abi)

theorem parse_safe_correct (abi : Abi) (buf : Slice abi.width) :
    (∃ address, Gives (parseDnsA buf) address) ∧ (∃ ech, Gives (parseHttpsEch buf) ech) ∧
      ∀ m : Message, buf.bytes = m.bytes →
        Gives (parseDnsA buf) (m.answers.findSome? fun r => r.data.address) ∧
        Gives (parseHttpsEch buf) (m.answers.findSome? fun r => r.data.ech) := by
  have ha : Gives (parseDnsA buf) _ := gives_parseDnsA abi.le_width
  have he : Gives (parseHttpsEch buf) _ := gives_parseHttpsEch abi.le_width
  refine ⟨⟨_, ha⟩, ⟨_, he⟩, fun m hm => ?_⟩
  rw [hm, m.parseDnsA_bytes] at ha
  rw [hm, m.parseHttpsEch_bytes] at he
  exact ⟨ha, he⟩

def sample : Message where
  id := 0
  flags := 0x8180
  questions := [⟨⟨[⟨[97], by decide⟩], none⟩, QTYPE_A, 1⟩]
  answers := [
    ⟨⟨[], some 12⟩, 1, #v[0, 0, 0, 60], .https ⟨1, ⟨[], none⟩, [⟨1, [2, 104, 50], by decide⟩, ⟨SVCPARAM_ECH, [9], by decide⟩]⟩,
      by decide⟩,
    ⟨⟨[], some 12⟩, 1, #v[0, 0, 0, 60], .other QTYPE_A [1, 2, 3, 4] (by decide), by decide⟩]
  authority := 0
  additional := 0
  rest := []
  questions_lt := by decide
  answers_lt := by decide

def sampleBytes : Slice (Abi.width .arm64) where
  bytes := sample.bytes
  length_lt := by decide +kernel

theorem parse_safe_correct_sample :
    Gives (parseDnsA sampleBytes) (some (.v4 (.new 1 2 3 4))) ∧ Gives (parseHttpsEch sampleBytes) (some [9]) :=
  (parse_safe_correct .arm64 sampleBytes).2.2 sample rfl

end Code

end Engine.Dns
