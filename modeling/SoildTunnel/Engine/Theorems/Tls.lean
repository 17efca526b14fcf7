import SoildTunnel.Engine.Theorems.SniffCode
import SoildTunnel.Lib.Window
import SoildTunnel.Rust.Utf8

-- The name in a TLS hello.
namespace Engine.Sniff

open Rust
open Checked (Slice Gives)
open Masque (Abi)
open Window (At Early)

section Prefix

variable {p b : Bytes} (h : p <+: b)

include h

theorem early_be16 (pos : Nat) : Early (be16 p pos) (be16 b pos) :=
  (Early.getElem? h pos).bind fun _ => (Early.getElem? h (pos + 1)).bind fun _ _ => id

theorem early_be24 (pos : Nat) : Early (be24 p pos) (be24 b pos) :=
  (Early.getElem? h pos).bind fun _ => (Early.getElem? h (pos + 1)).bind fun _ =>
    (Early.getElem? h (pos + 2)).bind fun _ _ => id

theorem early_slice (lo hi : Nat) : Early (slice p lo hi) (slice b lo hi) := by
  obtain ⟨rest, rfl⟩ := h
  unfold slice
  rw [List.length_append]
  refine .ite (by omega) fun ⟨hlo, hhi⟩ => ?_
  rw [List.drop_append_of_le_length (by omega), List.take_append_of_le_length (by rw [List.length_drop]; omega)]
  exact fun _ => id

theorem early_part {α : Type*} {f f' : Bytes → Option α} {lo hi : Nat} (hf : ∀ s s', s <+: s' → Early (f s) (f' s')) :
    Early ((slice p lo (min hi p.length)).bind f) ((slice b lo (min hi b.length)).bind f') := by
  have hl := h.length_le
  have hp : (p.take (min hi p.length)).drop lo <+: (b.take (min hi b.length)).drop lo := by
    apply List.IsPrefix.drop
    rw [← List.take_eq_take_min, ← List.take_eq_take_min]
    exact h.take hi
  unfold slice
  rw [← List.drop_take, ← List.drop_take]
  intro a ha
  obtain ⟨s, hs, ha⟩ := Option.bind_eq_some_iff.mp ha
  split_ifs at hs with hc
  cases hs
  rw [if_pos (by omega)]
  exact hf _ _ hp a ha

variable (cm : CaseMap)

theorem early_extensions {e e' : Nat} (he : e ≤ e') (pos : Nat) :
    Early (extensions cm p e pos) (extensions cm b e' pos) := by
  induction hn : e - pos using Nat.strong_induction_on generalizing pos
  case h n ih =>
    rw [extensions_eq, extensions_eq]
    refine .ite (by omega) fun _ => ?_
    refine (early_be16 h pos).bind fun kind => (early_be16 h (pos + 2)).bind fun len => ?_
    refine .ite (by omega) fun _ => ?_
    by_cases hk : kind = EXT_SERVER_NAME
    case pos =>
      rw [if_pos hk, if_pos hk]
      exact (early_slice h _ _).bind fun _ _ => id
    case neg =>
      rw [if_neg hk, if_neg hk]
      exact ih _ (by omega) _ rfl

theorem early_tlsSni : Early (tlsSni cm p) (tlsSni cm b) := by
  unfold tlsSni
  simp only [List.head?_eq_getElem?, ne_eq, ite_not]
  refine (Early.getElem? h 0).bind fun _ => .ite id fun _ => ?_
  refine (early_be16 h 3).bind fun _ => early_part h fun body body' hb => ?_
  refine (Early.getElem? hb 0).bind fun _ => .ite id fun _ => ?_
  refine (early_be24 hb 1).bind fun _ => early_part hb fun hello hello' hh => ?_
  refine (Early.getElem? hh 34).bind fun _ => (early_be16 hh _).bind fun _ => ?_
  refine (Early.getElem? hh _).bind fun _ => (early_be16 hh _).bind fun _ => ?_
  exact early_extensions hh cm (by have := hh.length_le; omega) _

end Prefix

structure ServerName where
  kind : UInt8
  name : Bytes

def ServerName.bytes (n : ServerName) : Bytes :=
  n.kind :: (Octets.toBytes16 n.name.length.toUInt16 ++ n.name)

inductive Extension
  | serverNames (names : List ServerName)
  | other (kind : UInt16) (data : Bytes) (ne : kind.toNat ≠ EXT_SERVER_NAME)

namespace Extension

def kind : Extension → UInt16
  | serverNames _ => 0
  | other kind _ _ => kind

def data : Extension → Bytes
  | serverNames names =>
    Octets.toBytes16 (names.flatMap ServerName.bytes).length.toUInt16 ++ names.flatMap ServerName.bytes
  | other _ data _ => data

def names : Extension → Option (List ServerName)
  | serverNames names => some names
  | other .. => none

def bytes (e : Extension) : Bytes :=
  Octets.toBytes16 e.kind ++ (Octets.toBytes16 e.data.length.toUInt16 ++ e.data)

end Extension

structure ClientHello where
  version : UInt16
  random : Vector UInt8 32
  session : Bytes
  ciphers : Bytes
  compression : Bytes
  extensions : Option (List Extension)
  session_lt : session.length < 2 ^ 8
  compression_lt : compression.length < 2 ^ 8

namespace ClientHello

variable (h : ClientHello)

def extensionBytes : Bytes :=
  match h.extensions with
  | none => []
  | some es => Octets.toBytes16 (es.flatMap Extension.bytes).length.toUInt16 ++ es.flatMap Extension.bytes

def bytes : Bytes :=
  Octets.toBytes16 h.version ++ (h.random.toList ++ (h.session.length.toUInt8 :: (h.session ++
    (Octets.toBytes16 h.ciphers.length.toUInt16 ++ (h.ciphers ++ (h.compression.length.toUInt8 :: (h.compression ++
      h.extensionBytes)))))))

def handshake : Bytes :=
  TLS_CLIENT_HELLO :: (h.bytes.length / 65536).toUInt8 :: (h.bytes.length / 256).toUInt8 :: h.bytes.length.toUInt8 ::
    h.bytes

def serverNames : Option (List ServerName) :=
  (h.extensions.getD []).findSome? Extension.names

def hostName : Option Bytes :=
  h.serverNames.bind fun names => (names.find? fun n => n.kind = SNI_HOST_NAME).map ServerName.name

def sni (cm : CaseMap) : Option Text :=
  h.hostName.bind (plausibleHost cm)

end ClientHello

-- The length of the record bounds every length in it.
structure HelloRecord where
  version : UInt16
  hello : ClientHello
  length_lt : hello.handshake.length < 2 ^ 16

def HelloRecord.bytes (r : HelloRecord) : Bytes :=
  TLS_HANDSHAKE :: (Octets.toBytes16 r.version ++ (Octets.toBytes16 r.hello.handshake.length.toUInt16 ++ r.hello.handshake))

section Whole

variable {msg rest : Bytes} {pos : Nat} (cm : CaseMap)

theorem be16_of_at {n : UInt16} (h : At msg pos (Octets.toBytes16 n ++ rest)) : be16 msg pos = some n.toNat := by
  obtain ⟨hi, lo, hhi, hlo, hn⟩ := h.pair
  rw [be16, hhi, hlo, ← hn]
  rfl

theorem be16_of_at_length {n : Nat} (hn : n < 2 ^ 16) (h : At msg pos (Octets.toBytes16 n.toUInt16 ++ rest)) :
    be16 msg pos = some n := by
  rw [be16_of_at h, Octets.toNat_toUInt16 hn]

theorem slice_of_at {a : Bytes} (h : At msg pos (a ++ rest)) : slice msg pos (pos + a.length) = some a := by
  have hl := h.skip.le
  rw [slice, if_pos (by omega), Nat.add_sub_cancel_left, h.take]

theorem serverName_of_at (names : List ServerName) (hlt : (names.flatMap ServerName.bytes).length < 2 ^ 16)
    (h : At msg pos (names.flatMap ServerName.bytes ++ rest)) :
    serverName cm msg (pos + (names.flatMap ServerName.bytes).length) pos =
      ((names.find? fun n => n.kind = SNI_HOST_NAME).map ServerName.name).bind (plausibleHost cm) := by
  induction names generalizing pos
  case nil =>
    rw [serverName_eq, if_neg (by simp)]
    rfl
  case cons n names ih =>
    have hlen : ((n :: names).flatMap ServerName.bytes).length = 3 + n.name.length + (names.flatMap ServerName.bytes).length := by
      simp [ServerName.bytes, Octets.toBytes16]
      omega
    rw [hlen] at hlt ⊢
    rw [List.flatMap_cons, ServerName.bytes] at h
    simp only [List.cons_append, List.append_assoc] at h
    have hv : At msg (pos + 3) (n.name ++ (names.flatMap ServerName.bytes ++ rest)) := h.tail.skip
    rw [serverName_eq, if_pos (by omega), h.head, Option.bind_some, be16_of_at_length (by omega) h.tail, Option.bind_some,
      if_pos (by omega), slice_of_at hv]
    by_cases hk : n.kind = SNI_HOST_NAME
    case pos =>
      rw [if_pos hk, List.find?_cons_of_pos (by simpa using hk)]
      rfl
    case neg =>
      rw [if_neg hk, List.find?_cons_of_neg (by simpa using hk), ← ih (by omega) hv.skip]
      congr 1
      omega

theorem firstServerName_data (names : List ServerName) (hlt : (names.flatMap ServerName.bytes).length < 2 ^ 16) :
    firstServerName cm (Extension.serverNames names).data =
      ((names.find? fun n => n.kind = SNI_HOST_NAME).map ServerName.name).bind (plausibleHost cm) := by
  have h := At.start (Extension.serverNames names).data
  have hs : At (Extension.serverNames names).data 2 (names.flatMap ServerName.bytes ++ []) := by
    rw [List.append_nil]
    exact h.skip
  have hl := hs.length
  rw [List.append_nil] at hl
  rw [firstServerName, be16_of_at_length hlt h, hl]
  change serverName cm _ (min _ _) 2 = _
  rw [Nat.min_self]
  exact serverName_of_at cm names hlt hs

theorem extensions_of_at (es : List Extension) (hlt : (es.flatMap Extension.bytes).length < 2 ^ 16)
    (h : At msg pos (es.flatMap Extension.bytes ++ rest)) :
    extensions cm msg (pos + (es.flatMap Extension.bytes).length) pos =
      ((es.findSome? Extension.names).bind fun names =>
        (names.find? fun n => n.kind = SNI_HOST_NAME).map ServerName.name).bind (plausibleHost cm) := by
  induction es generalizing pos
  case nil =>
    rw [extensions_eq, if_neg (by simp)]
    rfl
  case cons e es ih =>
    have hlen : ((e :: es).flatMap Extension.bytes).length = 4 + e.data.length + (es.flatMap Extension.bytes).length := by
      simp [Extension.bytes, Octets.toBytes16]
      omega
    rw [hlen] at hlt ⊢
    rw [List.flatMap_cons, Extension.bytes] at h
    simp only [List.append_assoc] at h
    have hv : At msg (pos + 4) (e.data ++ (es.flatMap Extension.bytes ++ rest)) := h.skip.skip
    have hl : be16 msg (pos + 2) = some e.data.length := be16_of_at_length (by omega) h.skip
    rw [extensions_eq, if_pos (by omega), be16_of_at h, Option.bind_some, hl, Option.bind_some, if_pos (by omega),
      slice_of_at hv]
    cases e
    case serverNames names =>
      have hn : (names.flatMap ServerName.bytes).length < 2 ^ 16 := by
        simp only [Extension.data, List.length_append] at hlt
        omega
      rw [if_pos (show (Extension.serverNames names).kind.toNat = EXT_SERVER_NAME from rfl), Option.bind_some,
        firstServerName_data cm names hn]
      rfl
    case other kind data ne =>
      rw [if_neg (show (Extension.other kind data ne).kind.toNat ≠ EXT_SERVER_NAME from ne), List.findSome?_cons]
      change _ = ((es.findSome? Extension.names).bind _).bind _
      rw [← ih (by omega) hv.skip]
      congr 1
      omega

end Whole

namespace ClientHello

variable (h : ClientHello)

theorem at_session : At h.bytes 34 (h.session.length.toUInt8 :: (h.session ++
    (Octets.toBytes16 h.ciphers.length.toUInt16 ++ (h.ciphers ++ (h.compression.length.toUInt8 :: (h.compression ++
      h.extensionBytes)))))) :=
  (At.start h.bytes).skip.skip.cast (by simp [Octets.toBytes16])

theorem at_ciphers : At h.bytes (34 + (1 + h.session.length))
    (Octets.toBytes16 h.ciphers.length.toUInt16 ++ (h.ciphers ++ (h.compression.length.toUInt8 :: (h.compression ++
      h.extensionBytes)))) :=
  h.at_session.tail.skip.cast (by omega)

theorem at_compression : At h.bytes (34 + (1 + h.session.length) + (2 + h.ciphers.length))
    (h.compression.length.toUInt8 :: (h.compression ++ h.extensionBytes)) :=
  h.at_ciphers.skip.skip.cast (by simp [Octets.toBytes16]; omega)

theorem at_extensions : At h.bytes (34 + (1 + h.session.length) + (2 + h.ciphers.length) + (1 + h.compression.length))
    h.extensionBytes :=
  h.at_compression.tail.skip.cast (by omega)

theorem slice_handshake : slice h.handshake 4 (min (4 + h.bytes.length) h.handshake.length) = some h.bytes := by
  have hb : At h.handshake 4 (h.bytes ++ []) := by
    rw [List.append_nil]
    exact (At.start h.handshake).tail.tail.tail.tail
  have hl := hb.length
  rw [List.append_nil] at hl
  rw [hl, Nat.min_self]
  exact slice_of_at hb

theorem be24_handshake (hlt : h.bytes.length < 2 ^ 16) : be24 h.handshake 1 = some h.bytes.length := by
  change some ((h.bytes.length / 65536).toUInt8.toNat * 65536 + (h.bytes.length / 256).toUInt8.toNat * 256 +
    h.bytes.length.toUInt8.toNat) = _
  simp
  omega

end ClientHello

namespace HelloRecord

variable (r : HelloRecord) (rest : Bytes)

theorem at_handshake : At (r.bytes ++ rest) 5 (r.hello.handshake ++ rest) := by
  have h := At.start (r.bytes ++ rest)
  rw [bytes, List.cons_append, List.append_assoc, List.append_assoc] at h
  exact h.tail.skip.skip

theorem be16_bytes : be16 (r.bytes ++ rest) 3 = some r.hello.handshake.length := by
  have h := At.start (r.bytes ++ rest)
  rw [bytes, List.cons_append, List.append_assoc, List.append_assoc] at h
  exact be16_of_at_length r.length_lt h.tail.skip

theorem slice_bytes : slice (r.bytes ++ rest) 5 (min (5 + r.hello.handshake.length) (r.bytes ++ rest).length) =
    some r.hello.handshake := by
  have h := r.at_handshake rest
  rw [Nat.min_eq_left h.skip.le]
  exact slice_of_at h

theorem bytes_length_lt : r.hello.bytes.length < 2 ^ 16 := by
  have h := r.length_lt
  simp only [ClientHello.handshake, List.length_cons] at h
  omega

theorem ciphers_length_lt : r.hello.ciphers.length < 2 ^ 16 := by
  have h := r.hello.at_ciphers.skip.length
  have hlt := r.bytes_length_lt
  rw [List.length_append] at h
  omega

theorem extensions_bytes (cm : CaseMap) :
    ((be16 r.hello.bytes (34 + (1 + r.hello.session.length) + (2 + r.hello.ciphers.length) + (1 + r.hello.compression.length))).bind
      fun len => extensions cm r.hello.bytes
        (min (34 + (1 + r.hello.session.length) + (2 + r.hello.ciphers.length) + (1 + r.hello.compression.length) + 2 + len)
          r.hello.bytes.length)
        (34 + (1 + r.hello.session.length) + (2 + r.hello.ciphers.length) + (1 + r.hello.compression.length) + 2)) =
      r.hello.sni cm := by
  have hlt := r.bytes_length_lt
  have h := r.hello.at_extensions
  revert h
  generalize 34 + (1 + r.hello.session.length) + (2 + r.hello.ciphers.length) + (1 + r.hello.compression.length) = pos
  unfold ClientHello.sni ClientHello.hostName ClientHello.serverNames ClientHello.extensionBytes
  cases r.hello.extensions
  case none =>
    intro h
    have hn : r.hello.bytes[pos]? = none := h.getElem? 0
    rw [be16, hn]
    rfl
  case some es =>
    intro h
    have he : At r.hello.bytes (pos + 2) (es.flatMap Extension.bytes ++ []) := by
      rw [List.append_nil]
      exact h.skip
    have hl := he.length
    rw [List.append_nil] at hl
    rw [be16_of_at_length (by omega) h, Option.bind_some, hl, Nat.min_self]
    exact extensions_of_at cm es (by omega) he

theorem tlsSni_bytes (cm : CaseMap) : tlsSni cm (r.bytes ++ rest) = r.hello.sni cm := by
  have hc := be16_of_at_length r.ciphers_length_lt r.hello.at_ciphers
  have hs : r.hello.session.length.toUInt8.toNat = r.hello.session.length := Text.toNat_ofNat_of_lt r.hello.session_lt
  have hm : r.hello.compression.length.toUInt8.toNat = r.hello.compression.length :=
    Text.toNat_ofNat_of_lt r.hello.compression_lt
  have hk : (r.bytes ++ rest).head? = some TLS_HANDSHAKE := rfl
  have hk' : r.hello.handshake.head? = some TLS_CLIENT_HELLO := rfl
  rw [← r.extensions_bytes cm]
  simp only [tlsSni, hk, hk', r.be16_bytes, r.slice_bytes, r.hello.be24_handshake r.bytes_length_lt, r.hello.slice_handshake,
    r.hello.at_session.head, r.hello.at_compression.head, hc, hs, hm, Option.bind_eq_bind, Option.bind_some, ne_eq,
    not_true_eq_false, if_false]

end HelloRecord

theorem tlsSni_hello (abi : Abi) (cm : CaseMap) (buf : Slice abi.width) : ∃ name, Gives (Code.tlsSni cm buf) name ∧
      ∀ r : HelloRecord, buf.bytes <+: r.bytes ∨ r.bytes <+: buf.bytes →
        (name = none ∨ name = r.hello.sni cm) ∧ (r.bytes <+: buf.bytes → name = r.hello.sni cm) ∧
          (r.hello.serverNames = none → name = none) := by
  refine ⟨_, Code.gives_tlsSni abi.le_width cm buf, fun r hr => ?_⟩
  have whole (h : r.bytes <+: buf.bytes) : tlsSni cm buf.bytes = r.hello.sni cm := by
    obtain ⟨rest, hb⟩ := h
    rw [← hb, r.tlsSni_bytes]
  have part : tlsSni cm buf.bytes = none ∨ tlsSni cm buf.bytes = r.hello.sni cm := by
    obtain h | h := hr
    · obtain hn | ⟨t, ht⟩ := Option.eq_none_or_eq_some (tlsSni cm buf.bytes)
      · exact .inl hn
      · have := r.tlsSni_bytes [] cm
        rw [List.append_nil] at this
        rw [ht, ← this, early_tlsSni h cm t ht]
        exact .inr rfl
    · exact .inr (whole h)
  refine ⟨part, whole, fun hn => ?_⟩
  have hs : r.hello.sni cm = none := by rw [ClientHello.sni, ClientHello.hostName, hn]; rfl
  exact part.elim id fun h => h.trans hs

def sampleRecord : HelloRecord where
  version := 0x0301
  hello := {
    version := 0x0303
    random := .replicate 32 0
    session := []
    ciphers := [0x13, 0x01]
    compression := [0]
    extensions := some [.other 10 [] (by decide), .serverNames [⟨SNI_HOST_NAME, [97, 46, 98]⟩]]
    session_lt := by decide
    compression_lt := by decide }
  length_lt := by decide +kernel

def sampleBytes : Slice (Abi.width .armv7) where
  bytes := sampleRecord.bytes
  length_lt := by decide +kernel

theorem tlsSni_hello_sample : Gives (Code.tlsSni .ascii sampleBytes) (some ['a', '.', 'b']) := by
  obtain ⟨name, hg, hr⟩ := tlsSni_hello .armv7 .ascii sampleBytes
  have hn := (hr sampleRecord (.inr (List.prefix_refl _))).2.1 (List.prefix_refl _)
  have hs : sampleRecord.hello.sni .ascii = some ['a', '.', 'b'] := by decide +kernel
  rw [hn, hs] at hg
  exact hg

end Engine.Sniff
