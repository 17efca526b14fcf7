import SoildTunnel.App.ProfileCodec

open Kotlin Kotlin.Text List Delimited Option

namespace App.ProfileCodec

variable {cm : CaseMap} {p : ConnectionProfile}

theorem fields_keys (p : ConnectionProfile) : (fields p).map (·.fst) = (fields {}).map (·.fst) :=
  rfl

theorem fields_key_nodup (p : ConnectionProfile) : ((fields p).map (·.fst)).Nodup := by
  rw [fields_keys]
  decide

theorem fields_key (p : ConnectionProfile) : ∀ e ∈ fields p, Table.Key equals cr lf e.fst := by
  have h : ∀ k ∈ (fields {}).map (·.fst), Table.Key equals cr lf k := by decide
  intro e he
  exact h e.fst (fields_keys p ▸ mem_map_of_mem he)

theorem name_oneLine {α : Type} [Enum α] (a : α) : (lit (Enum.name a)).OneLine :=
  Enum.name_oneLine a (Enum.mem_values a)

theorem escape_oneLine {t : Text} (h : cr ∉ t) : OneLine (Delimited.escape backslash letterN lf t) := by
  refine ⟨fun hc => ?_, not_mem_escape (by decide) (by decide)⟩
  cases mem_escape hc
  case inl h => exact absurd h (by decide)
  case inr hc =>
    cases hc
    case inl h  => exact absurd h (by decide)
    case inr hc => exact h hc

theorem Legible.fields_oneLine (h : Legible p) : ∀ e ∈ fields p, e.snd.OneLine := by
  have hs := joinToString_oneLine fun t ht => (h.splitApps t ht).oneLine
  have hb := joinToString_oneLine fun t ht => (h.blockedApps t ht).oneLine
  have ht := escape_oneLine h.torBridges.left
  simp only [fields, forall_mem_cons, not_mem_nil, false_imp_iff, implies_true, and_true,
    name_oneLine, ofBool_oneLine, ofInt_oneLine, h.manualPeer, h.manualRange, h.fragmentSize,
    h.fragmentDelay, h.tlsGroups, h.torExitCountry, hs, hb, ht]

theorem encode_eq (p : ConnectionProfile) : ∃ rest, encode p = lit "protocol" ++ equals :: rest := by
  refine ⟨lit (Enum.name p.protocol) ++ lf :: Table.write equals lf (fields p).tail, ?_⟩
  simp [encode, fields, Table.write, Table.writeEntry, List.intercalate]

theorem decode_encode_eq_ofMap (cm : CaseMap) (p : ConnectionProfile) :
    decode cm (some (encode p)) = ofMap cm (Table.get <| Table.read equals cr lf (encode p)) := by
  have ⟨rest, he⟩ := encode_eq p
  have hb : isBlank (encode p) = false := by
    rw [he, isBlank, all_append]
    simp [show (lit "protocol").all isWhitespace = false by decide]
  have hq : equals ∈ encode p := by simp [he]
  simp [decode, hb, hq]

-- On legible texts the codec loses the fields that `encode` does not write and normalises the
-- country code, and changes nothing else.
theorem Legible.decode_encode (h : Legible p) : decode cm (some (encode p)) =
      { sent p with torExitCountry := normalCountry cm p.torExitCountry } := by
  have hr : Table.read equals cr lf (encode p) = fields p :=
    Table.read_write (by simp [fields]) (by decide) (fields_key p) h.fields_oneLine
  have hg : ∀ e ∈ fields p, Table.get (fields p) e.fst = some e.snd :=
    fun _ he => Table.get_of_mem (fields_key_nodup p) he
  have hu := unescape_escape (c := lf) (by decide) h.torBridges.right
  rw [decode_encode_eq_ofMap, hr]
  generalize Table.get (fields p) = map at hg
  simp only [fields, forall_mem_cons, not_mem_nil, false_imp_iff, implies_true,
    and_true] at hg
  simp only [ofMap, hg, bind_some, map_some, getD_some, Enum.enumOr_name,
    toBooleanStrictOrNull_ofBool, toIntOrNull_ofInt, items_joinToString h.splitApps,
    items_joinToString h.blockedApps, hu, sent]

theorem ofMap_legible {map : Text → Option Text} (hm : ∀ k v, map k = some v → v.OneLine) :
    Legible (ofMap cm map) := by
  have hd : ∀ k, ((map k).getD []).OneLine := by
    intro k
    cases h : map k
    case none   => exact noBreak_nil
    case some v => exact hm k v h
  have hi : ∀ k, ∀ app ∈ ((map k).map items).getD [], Item app := by
    intro k app ha
    cases h : map k <;> simp [h] at ha
    case some v => exact item_of_mem_items (hm k v h) ha
  refine ⟨hd _, hd _, hd _, hd _, hd _, hi _, hi _, ?bridges, ?country⟩
  case bridges =>
    show cr ∉ ((map _).map (Delimited.unescape backslash letterN lf)).getD [] ∧
      ¬[backslash, letterN] <:+: ((map _).map (Delimited.unescape backslash letterN lf)).getD []
    cases h : map (lit "torBridges") <;> simp only [map_none, map_some,
      getD_none, getD_some]
    case none => decide
    case some v =>
      refine ⟨fun hc => ?_, not_pair_unescape (by decide) (by decide)⟩
      cases mem_unescape hc
      case inl h  => exact absurd h (by decide)
      case inr hc => exact (hm _ v h).left hc
  case country =>
    show OneLine (((map _).map (normalCountry cm)).getD [])
    cases h : map (lit "torExit")
    case none   => exact noBreak_nil
    case some v =>
      have ht : OneLine ((trim v).take 2) :=
        (hm _ v h).of_isInfix <| (List.take_prefix 2 _).isInfix.trans (trim_isInfix v)
      exact cm.uppercase_oneLine ht

theorem decode_encode_legible : Legible (decode cm (some (encode p))) := by
  rw [decode_encode_eq_ofMap]
  exact ofMap_legible fun k v h => Table.noBreak_of_mem_read (Table.mem_of_get h)

-- The hand-over returns the profile exactly when the fields that are not written have their
-- defaults, the texts are legible and the country code is in normal form.
theorem decode_encode_eq_iff (cm : CaseMap) (p : ConnectionProfile) : decode cm (some (encode p)) = p ↔
      sent p = p ∧ Legible p ∧ normalCountry cm p.torExitCountry = p.torExitCountry := by
  constructor
  case mp =>
    intro h
    have hl : Legible p := h ▸ decode_encode_legible
    rw [hl.decode_encode] at h
    have hc : normalCountry cm p.torExitCountry = p.torExitCountry :=
      congrArg ConnectionProfile.torExitCountry h
    rw [hc] at h
    exact ⟨h, hl, hc⟩
  case mpr =>
    intro ⟨hs, hl, hc⟩
    rw [hl.decode_encode, hc]
    exact hs

-- A profile with its own resolver comes out of the hand-over without it.
theorem decode_encode_drops_dnsServers : decode .ascii (some (encode { dnsServers := lit "9.9.9.9" })) ≠
      { dnsServers := lit "9.9.9.9" } := by
  intro h
  rw [decode_encode_eq_ofMap] at h
  exact absurd (congrArg ConnectionProfile.dnsServers h) (by decide : ([] : Text) ≠ lit "9.9.9.9")

end App.ProfileCodec
