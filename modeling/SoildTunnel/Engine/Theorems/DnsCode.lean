import SoildTunnel.Engine.DnsCode

-- The readers of DNS messages never leave the message, and compute what the plain functions do.
namespace Engine.Dns

open Rust Nat

section Message

variable {resp : Bytes} {pos : Nat}

theorem u16At_eq (h : pos + 1 < resp.length) :
    u16At resp pos = (resp.getD pos 0).toNat * 256 + (resp.getD (pos + 1) 0).toNat := by
  have hd : (resp.drop pos).take 2 = [resp.getD pos 0, resp.getD (pos + 1) 0] := by
    rw [List.drop_eq_getElem_cons (lt_of_succ_lt h), List.drop_eq_getElem_cons h, List.getD_eq_getElem _ _ h,
      List.getD_eq_getElem _ _ (lt_of_succ_lt h)]
    rfl
  rw [u16At, hd]
  simp [Octets.bigEndian]

theorem u16At_lt (resp : Bytes) (pos : Nat) : u16At resp pos < 2 ^ 16 := by
  unfold u16At
  match h : (resp.drop pos).take 2 with
  | [] => decide
  | [a] =>
    have := a.toNat_lt
    simp [Octets.bigEndian]
    omega
  | [a, b] =>
    have := a.toNat_lt
    have := b.toNat_lt
    simp [Octets.bigEndian]
    omega
  | _ :: _ :: _ :: _ =>
    have := congrArg List.length h
    simp at this
    omega

theorem matchLabels_cons {label : Text} (labels : List Text) (hl : label ≠ []) :
    matchLabels resp (label :: labels) pos = resp[pos]?.bind fun len =>
      if len.toNat = label.utf8.length then
        if pos + 1 + len.toNat ≤ resp.length then
          if eqIgnoreAsciiCase ((resp.drop (pos + 1)).take len.toNat) label.utf8 then
            matchLabels resp labels (pos + 1 + len.toNat)
          else none
        else none
      else none := by
  rw [matchLabels, if_neg hl]
  cases resp[pos]?
  case none => rfl
  case some len => simp only [ite_and, Option.bind_some]

theorem matchLabels_le {labels : List Text} {p : Nat} (h : matchLabels resp labels pos = some p)
    (hp : pos ≤ resp.length) : p ≤ resp.length := by
  induction labels generalizing pos
  case nil => exact Option.some.inj h ▸ hp
  case cons label labels ih =>
    by_cases hl : label = []
    case pos =>
      rw [matchLabels, if_pos hl] at h
      exact ih h hp
    case neg =>
      rw [matchLabels_cons labels hl] at h
      obtain ⟨len, -, h⟩ := Option.bind_eq_some_iff.mp h
      split_ifs at h
      exact ih h ‹_›

theorem dnsResponseMatches_bind (resp : Bytes) (id : UInt16) (name : Text) (qtype : UInt16) :
    (if dnsResponseMatches resp id name qtype then some () else none) =
      if 12 ≤ resp.length then
        if u16At resp 0 = id.toNat then
          if resp.getD 2 0 &&& 0x80 ≠ 0 then
            if u16At resp 4 = 1 then
              (matchLabels resp (name.splitOn '.') 12).bind fun pos => resp[pos]?.bind fun b =>
                if b = 0 then
                  if pos + 1 + 4 ≤ resp.length then
                    if u16At resp (pos + 1) = qtype.toNat then some () else none
                  else none
                else none
            else none
          else none
        else none
      else none := by
  unfold dnsResponseMatches
  simp only [← ite_and]
  by_cases h : resp.length < 12 ∨ u16At resp 0 ≠ id.toNat ∨ resp.getD 2 0 &&& 0x80 = 0 ∨ u16At resp 4 ≠ 1
  case pos =>
    have h' : ¬ (12 ≤ resp.length ∧ u16At resp 0 = id.toNat ∧ resp.getD 2 0 &&& 0x80 ≠ 0 ∧ u16At resp 4 = 1) := by
      simpa only [not_and_or, not_le, ne_eq, not_not] using h
    rw [if_pos h, if_neg h']
    rfl
  case neg =>
    have h' : 12 ≤ resp.length ∧ u16At resp 0 = id.toNat ∧ resp.getD 2 0 &&& 0x80 ≠ 0 ∧ u16At resp 4 = 1 := by
      simpa only [not_or, not_lt, ne_eq, not_not] using h
    rw [if_neg h, if_pos h']
    cases matchLabels resp (name.splitOn '.') 12
    case none => rfl
    case some pos =>
      obtain hb | ⟨b, hb⟩ := Option.eq_none_or_eq_some resp[pos]?
      · simp [hb]
      · simp [hb, and_assoc]

theorem skipName_le {p : Nat} (h : skipName resp pos = some p) : p ≤ resp.length + 1 := by
  fun_induction skipName resp pos
  case case1 => cases h
  case case2 hp _ =>
    have := (List.getElem?_eq_some_iff.mp hp).1
    cases h
    omega
  case case3 hp _ =>
    have := (List.getElem?_eq_some_iff.mp hp).1
    cases h
    omega
  case case4 ih => exact ih h

theorem firstRecord_succ {α : Type} (read : Nat → Nat → Nat → Option α) (n : Nat) :
    firstRecord resp read (n + 1) pos = (skipName resp pos).bind fun pos =>
      if pos + 10 ≤ resp.length then
        if pos + 10 + u16At resp (pos + 8) ≤ resp.length then
          (read (u16At resp pos) (pos + 10) (u16At resp (pos + 8))).or
            (firstRecord resp read n (pos + 10 + u16At resp (pos + 8)))
        else none
      else none := by
  rw [firstRecord]
  congr 1
  funext pos
  dsimp only
  split_ifs <;> first | rfl | omega

theorem svcparamsEch_eq (stop : Nat) : svcparamsEch resp stop pos = if pos + 4 ≤ stop then
      if pos + 4 + u16At resp (pos + 2) ≤ stop then
        if u16At resp pos = SVCPARAM_ECH.toNat then some ((resp.drop (pos + 4)).take (u16At resp (pos + 2)))
        else svcparamsEch resp stop (pos + 4 + u16At resp (pos + 2))
      else none
    else none := by
  rw [svcparamsEch]
  dsimp only
  split_ifs <;> first | rfl | omega

def readAddress (resp : Bytes) (rtype data rdlen : Nat) : Option IpAddr :=
  if rtype = 1 ∧ rdlen = 4 then
    some (.v4 (.new (resp.getD data 0) (resp.getD (data + 1) 0) (resp.getD (data + 2) 0) (resp.getD (data + 3) 0)))
  else none

-- The two walks over the answers are the same but for what they read.
theorem firstAddress_eq (n : Nat) : firstAddress resp n pos = firstRecord resp (readAddress resp) n pos := by
  induction n generalizing pos
  case zero => rfl
  case succ n ih =>
    rw [firstAddress, firstRecord]
    congr 1
    funext pos
    dsimp only [readAddress]
    rw [ih]
    split_ifs <;> rfl

end Message

namespace Code

open Checked Checked.Slice

variable {width : Nat} {buf : Slice width} {pos fuel : Nat} (hw : 32 ≤ width)

include hw

theorem gives_u16 (h : pos + 1 < buf.length) : Gives (u16 buf pos) (some (u16At buf.bytes pos)) := by
  rw [u16At_eq h]
  refine (gives_index (by omega)).bind ?_
  refine (gives_add (buf.lt_of_le hw (by omega))).bind ?_
  exact (gives_index h).bind (gives_pure _)

theorem gives_matchLabels (labels : List Text) (h : pos ≤ buf.length) :
    Gives (matchLabels buf labels pos) (Dns.matchLabels buf.bytes labels pos) := by
  induction labels generalizing pos
  case nil => exact gives_pure pos
  case cons label labels ih =>
    by_cases hl : label = []
    case pos =>
      rw [matchLabels, Dns.matchLabels, if_pos hl, if_pos hl]
      exact ih h
    case neg =>
      rw [matchLabels, matchLabels_cons labels hl, if_neg hl]
      refine (buf.gives_get pos).bind_option fun len hlen => ?_
      have hp : pos < buf.length := (List.getElem?_eq_some_iff.mp hlen).1
      have := len.toNat_lt
      refine Gives.require fun _ => ?_
      refine (gives_add (buf.lt_of_le hw (by omega))).bind ?_
      refine (gives_checkedAdd (buf.lt_of_le hw (by omega))).bind ?_
      refine Gives.require fun hs => ?_
      refine (gives_slice (le_add_right _ _) hs).bind ?_
      rw [Nat.add_sub_cancel_left]
      exact Gives.require fun _ => ih hs

theorem gives_dnsResponseMatches (id : UInt16) (name : Text) (qtype : UInt16) :
    Gives (dnsResponseMatches buf id name qtype)
      (if Dns.dnsResponseMatches buf.bytes id name qtype then some () else none) := by
  rw [dnsResponseMatches_bind]
  refine Gives.require fun h => ?_
  refine (gives_u16 hw (by omega)).bind (Gives.require fun _ => ?_)
  refine (gives_index (by omega)).bind (Gives.require fun _ => ?_)
  refine (gives_u16 hw (by omega)).bind (Gives.require fun _ => ?_)
  refine (gives_matchLabels hw _ h).bind_option fun pos hm => ?_
  have hp : pos ≤ buf.length := matchLabels_le hm h
  refine (buf.gives_get pos).bind_option fun b _ => ?_
  refine Gives.require fun _ => ?_
  refine (gives_add (buf.lt_of_le hw (by omega))).bind ?_
  refine (gives_add (buf.lt_of_le hw (by omega))).bind ?_
  refine Gives.require fun _ => ?_
  exact (gives_u16 hw (by omega)).bind (gives_require _)

theorem gives_skipName (h : buf.length - pos < fuel) :
    Gives (skipName buf fuel pos) (Dns.skipName buf.bytes pos) := by
  induction fuel generalizing pos
  case zero => exact absurd h (not_lt_zero _)
  case succ fuel ih =>
    rw [skipName, skipName_bind]
    refine (buf.gives_get pos).bind_option fun len hlen => ?_
    have hp : pos < buf.length := (List.getElem?_eq_some_iff.mp hlen).1
    have := len.toNat_lt
    by_cases hc : len &&& 0xc0 = 0xc0
    case pos =>
      rw [if_pos hc, if_pos hc]
      exact gives_add (buf.lt_of_le hw (by omega))
    case neg =>
      rw [if_neg hc, if_neg hc]
      by_cases hz : len = 0
      case pos =>
        rw [if_pos hz, if_pos hz]
        exact gives_add (buf.lt_of_le hw (by omega))
      case neg =>
        rw [if_neg hz, if_neg hz, add_assoc]
        refine (gives_add (buf.lt_of_le hw (by omega))).bind ?_
        refine (gives_add (buf.lt_of_le hw (by omega))).bind ?_
        exact ih (by omega)

theorem gives_skipQuestions (n : Nat) : Gives (skipQuestions buf n pos) (Dns.skipQuestions buf.bytes n pos) := by
  induction n generalizing pos
  case zero => exact gives_pure pos
  case succ n ih =>
    refine (gives_skipName hw (by omega)).bind_option fun p hp => ?_
    have : p ≤ buf.length + 1 := skipName_le hp
    exact (gives_checkedAdd (buf.lt_of_le hw (by omega))).bind ih

section Records

variable {α : Type} {read : Nat → Nat → Nat → Code α} {read' : Nat → Nat → Nat → Option α}
  (hr : ∀ rtype data rdlen, data + rdlen ≤ buf.length → Gives (read rtype data rdlen) (read' rtype data rdlen))

include hr

theorem gives_firstRecord (n : Nat) : Gives (firstRecord buf read n pos) (Dns.firstRecord buf.bytes read' n pos) := by
  induction n generalizing pos
  case zero => exact gives_failure
  case succ n ih =>
    rw [firstRecord_succ]
    refine (gives_skipName hw (by omega)).bind_option fun p hp => ?_
    have : p ≤ buf.length + 1 := skipName_le hp
    have := u16At_lt buf.bytes (p + 8)
    refine (gives_add (buf.lt_of_le hw (by omega))).bind (Gives.require fun h => ?_)
    refine (gives_u16 hw (by omega)).bind ?_
    refine (gives_add (buf.lt_of_le hw (by omega))).bind ?_
    refine (gives_u16 hw (by omega)).bind ?_
    refine (gives_add (buf.lt_of_le hw (by omega))).bind ?_
    have hd := gives_add (buf.lt_of_le (n := p + 10 + u16At buf.bytes (p + 8)) hw (by omega))
    refine hd.bind (Gives.require fun h' => ?_)
    exact (hr _ _ _ h').orElse fun _ => hd.bind ih

theorem gives_parse : Gives (parse buf read) (if buf.length < 12 then none
      else (Dns.skipQuestions buf.bytes (u16At buf.bytes 4) 12).bind
        (Dns.firstRecord buf.bytes read' (u16At buf.bytes 6))) := by
  rw [← ite_not]
  simp only [not_lt]
  refine Gives.require fun h => ?_
  refine (gives_u16 hw (by omega)).bind ((gives_u16 hw (by omega)).bind ?_)
  exact (gives_skipQuestions hw _).bind_option fun _ _ => gives_firstRecord hw hr _

end Records

theorem gives_readAddress (rtype data rdlen : Nat) (h : data + rdlen ≤ buf.length) :
    Gives (readAddress buf rtype data rdlen) (Dns.readAddress buf.bytes rtype data rdlen) := by
  refine Gives.require fun ⟨_, hl⟩ => ?_
  refine (gives_index (by omega)).bind ?_
  refine (gives_add (buf.lt_of_le hw (by omega))).bind ((gives_index (by omega)).bind ?_)
  refine (gives_add (buf.lt_of_le hw (by omega))).bind ((gives_index (by omega)).bind ?_)
  refine (gives_add (buf.lt_of_le hw (by omega))).bind ((gives_index (by omega)).bind ?_)
  exact gives_pure _

theorem gives_parseDnsA : Gives (parseDnsA buf) (Dns.parseDnsA buf.bytes) := by
  have h : Gives (parseDnsA buf) _ := gives_parse hw (gives_readAddress hw)
  simp only [← firstAddress_eq] at h
  exact h

theorem gives_svcparamsEch {stop : Nat} (hs : stop ≤ buf.length) (h : stop - pos < fuel) (hp : pos ≤ buf.length + 1) :
    Gives (svcparamsEch buf stop fuel pos) (Dns.svcparamsEch buf.bytes stop pos) := by
  induction fuel generalizing pos
  case zero => exact absurd h (not_lt_zero _)
  case succ fuel ih =>
    have := u16At_lt buf.bytes (pos + 2)
    rw [svcparamsEch, svcparamsEch_eq]
    refine (gives_add (buf.lt_of_le hw (by omega))).bind (Gives.require fun _ => ?_)
    refine (gives_u16 hw (by omega)).bind ?_
    refine (gives_add (buf.lt_of_le hw (by omega))).bind ((gives_u16 hw (by omega)).bind ?_)
    refine (gives_add (buf.lt_of_le hw (by omega))).bind ?_
    have hd := gives_add (buf.lt_of_le (n := pos + 4 + u16At buf.bytes (pos + 2)) hw (by omega))
    refine hd.bind (Gives.require fun hl => ?_)
    by_cases hk : u16At buf.bytes pos = SVCPARAM_ECH.toNat
    case pos =>
      rw [if_pos hk, if_pos hk]
      have hg := gives_slice (le_add_right (pos + 4) (u16At buf.bytes (pos + 2))) (hl.trans hs)
      rw [Nat.add_sub_cancel_left] at hg
      exact hd.bind hg
    case neg =>
      rw [if_neg hk, if_neg hk]
      exact hd.bind (ih (by omega) (by omega))

theorem gives_parseSvcparamsEch {data rdlen : Nat} (h : data + rdlen ≤ buf.length) :
    Gives (parseSvcparamsEch buf data rdlen) (Dns.parseSvcparamsEch buf.bytes data rdlen) := by
  unfold Dns.parseSvcparamsEch
  rw [← ite_not]
  simp only [not_lt]
  refine (gives_add (buf.lt_of_le hw (by omega))).bind ?_
  refine (gives_add (buf.lt_of_le hw (by omega))).bind (Gives.require fun _ => ?_)
  refine (gives_add (buf.lt_of_le hw (by omega))).bind ?_
  refine (gives_skipName hw (by omega)).bind_option fun p hp => ?_
  exact gives_svcparamsEch hw h (by omega) (skipName_le hp)

theorem gives_readEch (rtype data rdlen : Nat) (h : data + rdlen ≤ buf.length) :
    Gives (readEch buf rtype data rdlen) (Dns.readEch buf.bytes rtype data rdlen) :=
  Gives.require fun _ => gives_parseSvcparamsEch hw h

theorem gives_parseHttpsEch : Gives (parseHttpsEch buf) (Dns.parseHttpsEch buf.bytes) :=
  gives_parse hw (gives_readEch hw)

end Code

end Engine.Dns
