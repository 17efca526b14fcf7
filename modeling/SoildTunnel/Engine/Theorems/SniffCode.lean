import SoildTunnel.Engine.SniffCode

-- Nothing goes wrong in reading a hello, whatever the bytes are.
namespace Engine.Sniff

open Rust Option Nat

section Equations

variable {buf : Bytes} {pos n : Nat}

theorem be16_eq_some (h : be16 buf pos = some n) : pos + 1 < buf.length ∧ n < 2 ^ 16 := by
  obtain ⟨hi, hhi, h⟩ := bind_eq_some_iff.mp h
  obtain ⟨lo, hlo, h⟩ := bind_eq_some_iff.mp h
  have := hi.toNat_lt
  have := lo.toNat_lt
  cases h
  exact ⟨(List.getElem?_eq_some_iff.mp hlo).1, by omega⟩

theorem be24_eq_some (h : be24 buf pos = some n) : pos + 2 < buf.length ∧ n < 2 ^ 24 := by
  obtain ⟨a, ha, h⟩ := bind_eq_some_iff.mp h
  obtain ⟨b, hb, h⟩ := bind_eq_some_iff.mp h
  obtain ⟨c, hc, h⟩ := bind_eq_some_iff.mp h
  have := a.toNat_lt
  have := b.toNat_lt
  have := c.toNat_lt
  cases h
  exact ⟨(List.getElem?_eq_some_iff.mp hc).1, by omega⟩

variable (cm : CaseMap)

theorem serverName_eq (data : Bytes) (listEnd pos : Nat) : serverName cm data listEnd pos = if pos + 3 ≤ listEnd then
      data[pos]?.bind fun kind => (be16 data (pos + 1)).bind fun len =>
        if pos + 3 + len ≤ listEnd then
          if kind = SNI_HOST_NAME then (slice data (pos + 3) (pos + 3 + len)).bind (plausibleHost cm)
          else serverName cm data listEnd (pos + 3 + len)
        else none
    else none := by
  rw [serverName]
  simp only [← not_lt, ite_not]
  cases data[pos]?
  case none => rfl
  case some kind =>
    cases be16 data (pos + 1)
    case none => rfl
    case some len => rfl

theorem extensions_eq (hello : Bytes) (extensionsEnd pos : Nat) : extensions cm hello extensionsEnd pos =
    if pos + 4 ≤ extensionsEnd then
      (be16 hello pos).bind fun kind => (be16 hello (pos + 2)).bind fun len =>
        if pos + 4 + len ≤ extensionsEnd then
          if kind = EXT_SERVER_NAME then (slice hello (pos + 4) (pos + 4 + len)).bind (firstServerName cm)
          else extensions cm hello extensionsEnd (pos + 4 + len)
        else none
    else none := by
  rw [extensions]
  simp only [← not_lt, ite_not]
  cases be16 hello pos
  case none => rfl
  case some kind =>
    cases be16 hello (pos + 2)
    case none => rfl
    case some len => rfl

end Equations

namespace Code

open Checked Checked.Slice

variable {width : Nat} (hw : 32 ≤ width)

section Parts

variable {buf : Slice width} {pos : Nat}

theorem gives_part {α : Type} {f : Slice width → Code α} {g : Bytes → Option α} {lo hi : Nat}
    (hf : ∀ s : Slice width, Gives (f s) (g s.bytes)) :
    Gives (buf.part lo hi >>= f) ((slice buf.bytes lo hi).bind g) := by
  unfold part slice length
  by_cases h : lo ≤ hi ∧ hi ≤ buf.bytes.length
  case pos =>
    rw [if_pos h, if_pos h]
    exact (gives_pure _).bind (hf _)
  case neg =>
    rw [if_neg h, if_neg h]
    exact gives_failure.bind_none

include hw

theorem gives_be16 : Gives (be16 buf pos) (Sniff.be16 buf.bytes pos) := by
  refine (buf.gives_get pos).bind_option fun hi hhi => ?_
  have hp : pos < buf.length := (List.getElem?_eq_some_iff.mp hhi).1
  refine (gives_add (buf.lt_of_le hw (by omega))).bind ?_
  exact (buf.gives_get _).bind_option fun _ _ => gives_pure _

theorem gives_be24 : Gives (be24 buf pos) (Sniff.be24 buf.bytes pos) := by
  refine (buf.gives_get pos).bind_option fun a ha => ?_
  have hp : pos < buf.length := (List.getElem?_eq_some_iff.mp ha).1
  refine (gives_add (buf.lt_of_le hw (by omega))).bind ?_
  refine (buf.gives_get _).bind_option fun b _ => ?_
  refine (gives_add (buf.lt_of_le hw (by omega))).bind ?_
  exact (buf.gives_get _).bind_option fun _ _ => gives_pure _

end Parts

include hw

variable (cm : CaseMap)

theorem gives_serverName {data : Slice width} {listEnd fuel pos : Nat} (hl : listEnd ≤ data.length)
    (hp : pos ≤ data.length) (hf : listEnd - pos < fuel) :
    Gives (serverName cm data listEnd fuel pos) (Sniff.serverName cm data.bytes listEnd pos) := by
  induction fuel generalizing pos
  case zero => exact absurd hf (not_lt_zero _)
  case succ fuel ih =>
    rw [serverName, serverName_eq]
    refine (gives_add (data.lt_of_le hw (by omega))).bind (Gives.require fun _ => ?_)
    refine (data.gives_get pos).bind_option fun kind _ => ?_
    refine (gives_add (data.lt_of_le hw (by omega))).bind ?_
    refine (gives_be16 hw).bind_option fun len hlen => ?_
    have := (be16_eq_some hlen).2
    refine (gives_add (data.lt_of_le hw (by omega))).bind ?_
    refine (gives_checkedAdd (data.lt_of_le hw (by omega))).bind (Gives.require fun hs => ?_)
    by_cases hk : kind = SNI_HOST_NAME
    case pos =>
      rw [if_pos hk, if_pos hk]
      exact gives_part fun raw => gives_ofOption (plausibleHost cm raw.bytes)
    case neg =>
      rw [if_neg hk, if_neg hk]
      exact ih (hs.trans hl) (by omega)

theorem gives_firstServerName (data : Slice width) :
    Gives (firstServerName cm data) (Sniff.firstServerName cm data.bytes) := by
  refine (gives_be16 hw).bind_option fun listLen hlen => ?_
  obtain ⟨h2, _⟩ := be16_eq_some hlen
  have h2 : 2 ≤ data.length := h2
  refine (gives_checkedAdd (data.lt_of_le hw (by omega))).bind ?_
  exact gives_serverName hw cm (min_le_right _ _) h2 (lt_succ_of_le (by omega))

theorem gives_extensions {hello : Slice width} {extensionsEnd fuel pos : Nat} (he : extensionsEnd ≤ hello.length)
    (hp : pos ≤ hello.length) (hf : extensionsEnd - pos < fuel) :
    Gives (extensions cm hello extensionsEnd fuel pos) (Sniff.extensions cm hello.bytes extensionsEnd pos) := by
  induction fuel generalizing pos
  case zero => exact absurd hf (not_lt_zero _)
  case succ fuel ih =>
    rw [extensions, extensions_eq]
    refine (gives_add (hello.lt_of_le hw (by omega))).bind (Gives.require fun _ => ?_)
    refine (gives_be16 hw).bind_option fun kind _ => ?_
    refine (gives_add (hello.lt_of_le hw (by omega))).bind ?_
    refine (gives_be16 hw).bind_option fun len hlen => ?_
    have := (be16_eq_some hlen).2
    refine (gives_add (hello.lt_of_le hw (by omega))).bind ?_
    refine (gives_checkedAdd (hello.lt_of_le hw (by omega))).bind (Gives.require fun hs => ?_)
    by_cases hk : kind = EXT_SERVER_NAME
    case pos =>
      rw [if_pos hk, if_pos hk]
      exact gives_part (gives_firstServerName hw cm)
    case neg =>
      rw [if_neg hk, if_neg hk]
      exact ih (hs.trans he) (by omega)

theorem gives_tlsSni (buf : Slice width) : Gives (tlsSni cm buf) (Sniff.tlsSni cm buf.bytes) := by
  unfold Sniff.tlsSni
  simp only [List.head?_eq_getElem?, ne_eq, ite_not]
  refine (buf.gives_get 0).bind_option fun first _ => Gives.require fun _ => ?_
  refine (gives_be16 hw).bind_option fun recordLen hr => ?_
  have := (be16_eq_some hr).2
  refine (gives_checkedAdd (buf.lt_of_le hw (by omega))).bind ?_
  refine gives_part fun body => ?_
  refine (body.gives_get 0).bind_option fun kind _ => Gives.require fun _ => ?_
  refine (gives_be24 hw).bind_option fun helloLen hh => ?_
  have := (be24_eq_some hh).2
  refine (gives_checkedAdd (body.lt_of_le hw (by omega))).bind ?_
  refine gives_part fun hello => ?_
  refine (hello.gives_get 34).bind_option fun sessionLen _ => ?_
  have := sessionLen.toNat_lt
  refine (gives_add (hello.lt_of_le hw (by omega))).bind ?_
  refine (gives_checkedAdd (hello.lt_of_le hw (by omega))).bind ?_
  refine (gives_be16 hw).bind_option fun cipherLen hc => ?_
  obtain ⟨hc, _⟩ := be16_eq_some hc
  have hc : 34 + (1 + sessionLen.toNat) + 1 < hello.length := hc
  refine (gives_add (hello.lt_of_le hw (by omega))).bind ?_
  refine (gives_checkedAdd (hello.lt_of_le hw (by omega))).bind ?_
  refine (hello.gives_get _).bind_option fun compressionLen hm => ?_
  have hm : 34 + (1 + sessionLen.toNat) + (2 + cipherLen) < hello.length := (List.getElem?_eq_some_iff.mp hm).1
  have := compressionLen.toNat_lt
  refine (gives_add (hello.lt_of_le hw (by omega))).bind ?_
  refine (gives_checkedAdd (hello.lt_of_le hw (by omega))).bind ?_
  refine (gives_be16 hw).bind_option fun extensionsLen he => ?_
  obtain ⟨he, _⟩ := be16_eq_some he
  have he : 34 + (1 + sessionLen.toNat) + (2 + cipherLen) + (1 + compressionLen.toNat) + 1 < hello.length := he
  refine (gives_checkedAdd (hello.lt_of_le hw (by omega))).bind ?_
  refine (gives_checkedAdd (hello.lt_of_le hw (by omega))).bind ?_
  exact gives_extensions hw cm (min_le_right _ _) he (lt_succ_of_le (by omega))

end Code

end Engine.Sniff
