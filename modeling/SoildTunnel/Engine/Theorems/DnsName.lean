import SoildTunnel.Engine.Theorems.DnsCode
import SoildTunnel.Lib.Window
import SoildTunnel.Rust.Utf8

-- The names in queries and in the answers to them.
namespace Engine.Dns

open Rust
open Window (At)

def wire (labels : List Text) : Bytes :=
  labels.flatMap fun label : Text => label.utf8.length.toUInt8 :: label.utf8

theorem wire_cons (label : Text) (labels : List Text) :
    wire (label :: labels) = label.utf8.length.toUInt8 :: (label.utf8 ++ wire labels) :=
  List.flatMap_cons ..

theorem wire_append (l l' : List Text) : wire (l ++ l') = wire l ++ wire l' :=
  List.flatMap_append

structure IsLabel (label : Text) : Prop where
  ne_nil : label ≠ []
  length_le : label.utf8.length ≤ 63
  dot : '.' ∉ label

structure HostName where
  labels : List Text
  trailingDot : Bool
  ne_nil : labels ≠ []
  isLabel : ∀ label ∈ labels, IsLabel label

namespace HostName

def text (n : HostName) : Text :=
  ['.'].intercalate n.labels ++ if n.trailingDot then ['.'] else []

theorem intercalate_concat_nil {labels : List Text} (h : labels ≠ []) :
    ['.'].intercalate (labels ++ [[]]) = ['.'].intercalate labels ++ ['.'] := by
  induction labels
  case nil => exact absurd rfl h
  case cons label labels ih =>
    cases labels
    case nil => rw [List.singleton_append, List.intercalate_cons_cons]; simp
    case cons label' labels =>
      have := ih (List.cons_ne_nil _ _)
      rw [List.cons_append] at this
      rw [List.cons_append, List.cons_append, List.intercalate_cons_cons, this, List.intercalate_cons_cons]
      simp

theorem splitOn_text (n : HostName) : n.text.splitOn '.' = n.labels ++ if n.trailingDot then [[]] else [] := by
  unfold text
  cases n.trailingDot
  case false =>
    simp only [Bool.false_eq_true, if_false, List.append_nil]
    exact List.splitOn_intercalate '.' (fun label hl => (n.isLabel label hl).dot) n.ne_nil
  case true =>
    simp only [if_true, ← intercalate_concat_nil n.ne_nil]
    refine List.splitOn_intercalate '.' ?_ (by simp)
    intro label hl
    rcases List.mem_append.mp hl with hl | hl
    · exact (n.isLabel label hl).dot
    · rw [List.mem_singleton.mp hl]
      exact List.not_mem_nil

end HostName

section Labels

variable {resp tail : Bytes} {labels : List Text}

theorem matchLabels_wire {pos : Nat} (h : At resp pos (wire labels ++ tail)) (hl : ∀ label ∈ labels, IsLabel label) :
    matchLabels resp labels pos = some (pos + (wire labels).length) := by
  induction labels generalizing pos
  case nil => rfl
  case cons label labels ih =>
    obtain ⟨hn, hlen, _⟩ := hl label List.mem_cons_self
    have hlen' : label.utf8.length.toUInt8.toNat = label.utf8.length := Text.toNat_ofNat_of_lt (by omega)
    rw [wire_cons, List.cons_append, List.append_assoc] at h
    have hnext := h.tail.skip
    have hstop := hnext.le
    have heq : eqIgnoreAsciiCase label.utf8 label.utf8 := decide_eq_true rfl
    rw [matchLabels_cons labels hn, h.head, Option.bind_some, hlen', h.tail.take, if_pos rfl, if_pos hstop, if_pos heq,
      ih hnext fun l h => hl l (List.mem_cons_of_mem _ h), wire_cons, List.length_cons, List.length_append]
    congr 1
    omega

theorem matchLabels_append_nil (pos : Nat) : matchLabels resp (labels ++ [[]]) pos = matchLabels resp labels pos := by
  induction labels generalizing pos
  case nil => rfl
  case cons label labels ih => simp only [List.cons_append, matchLabels, ih]

end Labels

-- A response with the number and the question of a query. The rest of it may be anything.
structure Echo where
  flags : UInt8 × UInt8
  counts : Vector UInt8 6
  rest : Bytes
  response : flags.1 &&& 0x80 ≠ 0

namespace Echo

variable (r : Echo) (id : UInt16) (n : HostName) (qtype : UInt16)

def bytes (name : Text) : Bytes :=
  Octets.toBytes16 id ++ ([r.flags.1, r.flags.2] ++ ([0x00, 0x01] ++ (r.counts.toList ++
    ((buildDnsQuery id name qtype).drop 12 ++ r.rest))))

theorem drop_buildDnsQuery (name : Text) : (buildDnsQuery id name qtype).drop 12 =
      wire (name.splitOn '.') ++ (0x00 :: (Octets.toBytes16 qtype ++ [0x00, 0x01])) := by
  rw [buildDnsQuery, ← wire]
  simp [Octets.toBytes16]

theorem at_question (name : Text) : At (r.bytes id qtype name) 12
    (wire (name.splitOn '.') ++ (0x00 :: (Octets.toBytes16 qtype ++ ([0x00, 0x01] ++ r.rest)))) := by
  have h := ((((At.start (r.bytes id qtype name)).skip).skip).skip).skip
  rw [drop_buildDnsQuery, List.append_assoc, List.cons_append, List.append_assoc] at h
  simpa [Octets.toBytes16] using h

theorem header : ¬ ((r.bytes id qtype n.text).length < 12 ∨ u16At (r.bytes id qtype n.text) 0 ≠ id.toNat ∨
    (r.bytes id qtype n.text).getD 2 0 &&& 0x80 = 0 ∨ u16At (r.bytes id qtype n.text) 4 ≠ 1) := by
  have hs := At.start (r.bytes id qtype n.text)
  have hl := (r.at_question id qtype n.text).le
  have hid : u16At (r.bytes id qtype n.text) 0 = id.toNat := Window.bigEndian_of_at hs
  simp only [not_or, Nat.not_lt, not_not]
  exact ⟨hl, hid, r.response, rfl⟩

theorem at_end : ∃ pos, matchLabels (r.bytes id qtype n.text) (n.text.splitOn '.') 12 = some pos ∧
    At (r.bytes id qtype n.text) pos
      ((if n.trailingDot then [0x00] else []) ++ (0x00 :: (Octets.toBytes16 qtype ++ ([0x00, 0x01] ++ r.rest)))) := by
  have hq := r.at_question id qtype n.text
  rw [n.splitOn_text, wire_append, List.append_assoc] at hq
  have hm := matchLabels_wire hq n.isLabel
  refine ⟨12 + (wire n.labels).length, ?_, ?_⟩
  · rw [n.splitOn_text, ← hm]
    split
    case isTrue => exact matchLabels_append_nil 12
    case isFalse => rw [List.append_nil]
  · have hw : wire (if n.trailingDot then [[]] else []) = if n.trailingDot then [0x00] else [] := by
      cases n.trailingDot <;> rfl
    rw [← hw]
    exact hq.skip

end Echo

theorem toNat_shiftRight (qtype : UInt16) : (qtype >>> 8).toUInt8.toNat = qtype.toNat / 256 := by
  have := qtype.toNat_lt
  simp [Nat.shiftRight_eq_div_pow]
  omega

-- The empty label is written as if the name ended there.
theorem dnsResponseMatches_echo_iff (n : HostName) (id qtype : UInt16) (r : Echo) :
    dnsResponseMatches (r.bytes id qtype n.text) id n.text qtype ↔ n.trailingDot = false ∨ qtype = 0 := by
  obtain ⟨pos, hm, hp⟩ := r.at_end id n qtype
  rw [dnsResponseMatches, if_neg (r.header id n qtype), hm]
  dsimp only
  have hlen := hp.length
  cases ht : n.trailingDot
  case false =>
    rw [ht] at hp
    have hu : u16At (r.bytes id qtype n.text) (pos + 1) = qtype.toNat := Window.bigEndian_of_at hp.tail
    have hl : pos + 5 ≤ (r.bytes id qtype n.text).length := by
      rw [hlen]
      simp [Octets.toBytes16]
      omega
    simp [hp.head, hu, hl]
  case true =>
    rw [ht] at hp
    have hu : u16At (r.bytes id qtype n.text) (pos + 1) = qtype.toNat / 256 := by
      have h : ((r.bytes id qtype n.text).drop (pos + 1)).take 2 = [(0x00 : UInt8), (qtype >>> 8).toUInt8] := by
        rw [hp.tail.drop]
        rfl
      rw [u16At, h, ← toNat_shiftRight]
      simp [Octets.bigEndian]
    have hl : pos + 5 ≤ (r.bytes id qtype n.text).length := by
      rw [hlen]
      simp [Octets.toBytes16]
      omega
    have hq : qtype.toNat / 256 = qtype.toNat ↔ qtype = 0 := by
      rw [← UInt16.toNat_inj]
      change _ ↔ qtype.toNat = 0
      omega
    simp [hp.head, hu, hl, hq]

def dotted : HostName where
  labels := [['a']]
  trailingDot := true
  ne_nil := List.cons_ne_nil _ _
  isLabel label hl := by
    rw [List.mem_singleton.mp hl]
    exact ⟨by decide, by decide, by decide⟩

def emptyEcho : Echo where
  flags := (0x81, 0x80)
  counts := #v[0, 0, 0, 0, 0, 0]
  rest := []
  response := by decide

theorem not_dnsResponseMatches_echo :
    ¬ dnsResponseMatches (emptyEcho.bytes 0 QTYPE_A dotted.text) 0 dotted.text QTYPE_A := by
  decide +kernel

section Unique

variable {resp : Bytes} {pos p p' : Nat} {labels labels' : List Text}

theorem matchLabels_filter (labels : List Text) :
    matchLabels resp (labels.filter (· ≠ [])) pos = matchLabels resp labels pos := by
  induction labels generalizing pos
  case nil => rfl
  case cons label labels ih =>
    by_cases hl : label = []
    case pos => rw [List.filter_cons_of_neg (by simpa using hl), ih, matchLabels, if_pos hl]
    case neg =>
      rw [List.filter_cons_of_pos (by simpa using hl), matchLabels_cons _ hl, matchLabels_cons _ hl]
      simp only [ih]

variable {label : Text}

theorem matchLabels_eq_some (hl : label ≠ []) (h : matchLabels resp (label :: labels) pos = some p) :
    ∃ len, resp[pos]? = some len ∧ len.toNat = label.utf8.length ∧
      eqIgnoreAsciiCase ((resp.drop (pos + 1)).take len.toNat) label.utf8 ∧
      matchLabels resp labels (pos + 1 + len.toNat) = some p := by
  rw [matchLabels_cons _ hl] at h
  obtain ⟨len, hlen, h⟩ := Option.bind_eq_some_iff.mp h
  split_ifs at h with hlab hstop heq
  exact ⟨len, hlen, hlab, heq, h⟩

theorem length_utf8_pos (h : label ≠ []) : 0 < label.utf8.length := by
  obtain ⟨c, t, rfl⟩ := List.exists_cons_of_ne_nil h
  have hc := String.length_utf8EncodeChar c
  have hs := c.utf8Size_pos
  simp only [Text.utf8, List.flatMap_cons, List.length_append]
  omega

-- A label never has the length that ends a name.
theorem matchLabels_ne_end (hl : label ≠ []) (h0 : resp[pos]? = some 0) :
    matchLabels resp (label :: labels) pos ≠ some p := by
  intro h
  obtain ⟨len, hlen, hlab, -⟩ := matchLabels_eq_some hl h
  cases h0.symm.trans hlen
  have := length_utf8_pos hl
  rw [← hlab] at this
  exact absurd this (by decide)

theorem matchLabels_unique (hl : ∀ label ∈ labels, label ≠ []) (hl' : ∀ label ∈ labels', label ≠ [])
    (h : matchLabels resp labels pos = some p) (h' : matchLabels resp labels' pos = some p')
    (h0 : resp[p]? = some 0) (h0' : resp[p']? = some 0) :
    p = p' ∧ List.Forall₂ (fun a b : Text => eqIgnoreAsciiCase a.utf8 b.utf8) labels labels' := by
  induction labels generalizing labels' pos
  case nil =>
    cases Option.some.inj h
    cases labels'
    case nil => exact ⟨Option.some.inj h', .nil⟩
    case cons label' labels' => exact absurd h' (matchLabels_ne_end (hl' _ List.mem_cons_self) h0)
  case cons label labels ih =>
    cases labels'
    case nil =>
      cases Option.some.inj h'
      exact absurd h (matchLabels_ne_end (hl _ List.mem_cons_self) h0')
    case cons label' labels' =>
      obtain ⟨len, hlen, -, heq, hm⟩ := matchLabels_eq_some (hl _ List.mem_cons_self) h
      obtain ⟨len', hlen', -, heq', hm'⟩ := matchLabels_eq_some (hl' _ List.mem_cons_self) h'
      cases hlen.symm.trans hlen'
      obtain ⟨hp, hf⟩ := ih (fun l h => hl l (List.mem_cons_of_mem _ h)) (fun l h => hl' l (List.mem_cons_of_mem _ h)) hm hm'
      have he : eqIgnoreAsciiCase label.utf8 label'.utf8 :=
        decide_eq_true ((of_decide_eq_true heq).symm.trans (of_decide_eq_true heq'))
      exact ⟨hp, .cons he hf⟩

-- The labels that count.
def labelsOf (name : Text) : List Text :=
  (name.splitOn '.').filter (· ≠ [])

theorem ne_nil_of_mem_labelsOf {name : Text} (h : label ∈ labelsOf name) : label ≠ [] := by
  simpa using List.of_mem_filter h

theorem dnsResponseMatches_eq_true {id qtype : UInt16} {name : Text} (h : dnsResponseMatches resp id name qtype) :
    u16At resp 0 = id.toNat ∧ ∃ pos, matchLabels resp (labelsOf name) 12 = some pos ∧ resp[pos]? = some 0 ∧
      u16At resp (pos + 1) = qtype.toNat := by
  have hs := dnsResponseMatches_bind resp id name qtype
  rw [if_pos h] at hs
  split_ifs at hs with _ hid _ _
  obtain ⟨pos, hm, hs⟩ := Option.bind_eq_some_iff.mp hs.symm
  obtain ⟨b, hb, hs⟩ := Option.bind_eq_some_iff.mp hs
  split_ifs at hs with h0 _ hq
  exact ⟨hid, pos, (matchLabels_filter _).trans hm, h0 ▸ hb, hq⟩

theorem dnsResponseMatches_unique {id id' qtype qtype' : UInt16} {name name' : Text}
    (h : dnsResponseMatches resp id name qtype) (h' : dnsResponseMatches resp id' name' qtype') :
    id = id' ∧ qtype = qtype' ∧
      List.Forall₂ (fun a b : Text => eqIgnoreAsciiCase a.utf8 b.utf8) (labelsOf name) (labelsOf name') := by
  obtain ⟨hid, pos, hm, h0, hq⟩ := dnsResponseMatches_eq_true h
  obtain ⟨hid', pos', hm', h0', hq'⟩ := dnsResponseMatches_eq_true h'
  obtain ⟨rfl, hf⟩ := matchLabels_unique (fun _ => ne_nil_of_mem_labelsOf) (fun _ => ne_nil_of_mem_labelsOf) hm hm' h0 h0'
  exact ⟨UInt16.toNat_inj.mp (hid.symm.trans hid'), UInt16.toNat_inj.mp (hq.symm.trans hq'), hf⟩

end Unique

namespace Code

open Checked
open Masque (Abi)

theorem dnsResponseMatches_safe_unique (abi : Abi) (resp : Slice abi.width) (id₁ id₂ : UInt16) (n₁ n₂ : Text)
    (type₁ type₂ : UInt16) :
    (∃ outcome, Gives (dnsResponseMatches resp id₁ n₁ type₁) outcome) ∧
      (Gives (dnsResponseMatches resp id₁ n₁ type₁) (some ()) →
        Gives (dnsResponseMatches resp id₂ n₂ type₂) (some ()) →
        id₁ = id₂ ∧ type₁ = type₂ ∧
          List.Forall₂ (fun a b : Text => eqIgnoreAsciiCase a.utf8 b.utf8) (labelsOf n₁) (labelsOf n₂)) := by
  have hw := abi.le_width
  have accepted {id : UInt16} {name : Text} {qtype : UInt16} (h : Gives (dnsResponseMatches resp id name qtype) (some ())) :
      Dns.dnsResponseMatches resp.bytes id name qtype := by
    have h := (gives_dnsResponseMatches hw id name qtype).unique h
    split_ifs at h with hm
    exact hm
  refine ⟨⟨_, gives_dnsResponseMatches hw id₁ n₁ type₁⟩, fun h₁ h₂ => ?_⟩
  exact dnsResponseMatches_unique (accepted h₁) (accepted h₂)

def letter : Slice (Abi.width .armv7) where
  bytes := [0, 7, 0x80, 0, 0, 1, 0, 0, 0, 0, 0, 0, 1, 97, 0, 0, 1, 0, 1]
  length_lt := by simp [Abi.width]

theorem dnsResponseMatches_safe_unique_letter :
    List.Forall₂ (fun a b : Text => eqIgnoreAsciiCase a.utf8 b.utf8) (labelsOf ['a']) (labelsOf ['.', 'A', '.']) :=
  ((dnsResponseMatches_safe_unique .armv7 letter 7 7 ['a'] ['.', 'A', '.'] 1 1).2 (by decide +kernel) (by decide +kernel)).2.2

end Code

end Engine.Dns
