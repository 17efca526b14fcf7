import SoildTunnel.Engine.Addr

-- What the readers of addresses take from a text, and how an IPv6 address begins.
namespace Engine

open Rust List Option

namespace Reader

variable {α β : Type} {t u : Text} {c : Char}

def isAddrChar (c : Char) : Bool :=
  (toDigit 16 c).isSome || c = ':' || c = '.'

-- What is taken is a piece of the front, and made of the symbols of addresses.
def Takes (r : Reader α) : Prop :=
  ∀ t x u, r t = some (x, u) → ∃ v, t = v ++ u ∧ ∀ c ∈ v, isAddrChar c

variable {r : Reader α}

theorem Takes.seq {f : α → Reader β} (hr : Takes r) (hf : ∀ x, Takes (f x)) :
    Takes fun t => (r t).bind fun p => f p.1 p.2 := by
  intro t x u h
  obtain ⟨⟨y, t'⟩, hy, hx⟩ := bind_eq_some_iff.mp h
  obtain ⟨v, rfl, hv⟩ := hr t y t' hy
  obtain ⟨w, rfl, hw⟩ := hf y t' x u hx
  exact ⟨v ++ w, by simp, forall_mem_append.mpr ⟨hv, hw⟩⟩

theorem Takes.pure (x : α) : Takes fun t => some (x, t) := by
  intro t y u h
  cases h
  exact ⟨[], rfl, forall_mem_nil _⟩

theorem givenChar_of_ne (h : t.head? ≠ some c) : givenChar c t = none := by
  cases t
  case nil => rfl
  case cons d t =>
    have hd : d ≠ c := by simpa using h
    simp [givenChar, hd]

theorem givenChar_eq_some {x : Unit} (h : givenChar c t = some (x, u)) : t = c :: u := by
  cases t
  case nil => cases h
  case cons d t =>
    simp only [givenChar] at h
    split at h <;> cases h
    case isTrue hd => rw [hd]

theorem takes_givenChar (h : isAddrChar c) : Takes (givenChar c) := by
  intro t x u hg
  exact ⟨[c], givenChar_eq_some hg, by simpa using h⟩

theorem Takes.separator (hr : Takes r) (h : isAddrChar c) (index : Nat) : Takes (separator c index r) := by
  unfold Reader.separator
  split
  case isTrue => exact hr
  case isFalse => exact (takes_givenChar h).seq fun _ => hr

theorem toDigit_mono {radix : Nat} (hr : radix ≤ 16) (h : (toDigit radix c).isSome) : (toDigit 16 c).isSome := by
  unfold toDigit at h ⊢
  split_ifs at h ⊢ <;> simp_all <;> omega

variable {zero : Bool}

theorem number_eq_some {radix maxDigits bound n : Nat} (h : number radix maxDigits bound zero t = some (n, u)) :
    ∃ v, v ≠ [] ∧ t = v ++ u ∧ ∀ c ∈ v, (toDigit radix c).isSome := by
  simp only [number] at h
  split_ifs at h with hn
  case neg =>
    obtain ⟨-, rfl⟩ := Prod.mk.inj (some_inj.mp h)
    refine ⟨t.takeWhile fun c => (toDigit radix c).isSome, fun he => hn (.inl he), ?_, ?_⟩
    case refine_1 => exact (prefix_iff_eq_append.mp (List.takeWhile_prefix _)).symm
    case refine_2 => exact all_eq_true.mp all_takeWhile

theorem takes_number {radix maxDigits bound : Nat} (hr : radix ≤ 16) : Takes (number radix maxDigits bound zero) := by
  intro t n u h
  obtain ⟨v, -, rfl, hv⟩ := number_eq_some h
  exact ⟨v, rfl, fun c hc => by simp [isAddrChar, toDigit_mono hr (hv c hc)]⟩

theorem takes_ipv4Addr : Takes ipv4Addr := by
  have ho (i : Nat) : Takes (separator '.' i octet) := (takes_number (by decide)).separator rfl i
  exact (ho 0).seq fun a => (ho 1).seq fun b => (ho 2).seq fun c => (ho 3).seq fun d =>
    .pure (Ipv4Addr.new (.ofNat a) (.ofNat b) (.ofNat c) (.ofNat d))

theorem takes_groups (left index : Nat) (t : Text) :
    ∃ v, t = v ++ (groups left index t).2.2 ∧ ∀ c ∈ v, isAddrChar c := by
  induction left generalizing index t
  case zero => exact ⟨[], rfl, forall_mem_nil _⟩
  case succ left ih =>
    simp only [groups]
    split
    case h_1 ip t' h =>
      have h : separator ':' index ipv4Addr t = some (ip, t') := by
        obtain ⟨-, h⟩ := ite_none_left_eq_some.mp h
        exact h
      exact takes_ipv4Addr.separator rfl index t ip t' h
    case h_2 =>
      split
      case h_1 g t' h =>
        have hn : Takes (number 16 4 (2 ^ 16) true) := takes_number le_rfl
        obtain ⟨v, rfl, hv⟩ := hn.separator rfl index t g t' h
        obtain ⟨w, hw, hc⟩ := ih (index + 1) t'
        refine ⟨v ++ w, ?_, forall_mem_append.mpr ⟨hv, hc⟩⟩
        rw [append_assoc, ← hw]
      case h_2 => exact ⟨[], rfl, forall_mem_nil _⟩

theorem takes_ipv6Addr : Takes ipv6Addr := by
  intro t a u h
  simp only [ipv6Addr] at h
  obtain ⟨v, hv, hc⟩ := takes_groups 8 0 t
  generalize groups 8 0 t = g at h hv
  obtain ⟨head, v4, t'⟩ := g
  simp only at h hv
  subst hv
  split_ifs at h
  case pos =>
    obtain ⟨-, rfl⟩ := Prod.mk.inj (some_inj.mp h)
    exact ⟨v, rfl, hc⟩
  case neg =>
    have htail (n : Nat) : Takes fun t => some ((groups n 0 t).1, (groups n 0 t).2.2) := by
      intro t x u h
      cases h
      exact takes_groups n 0 t
    have hrest := (takes_givenChar (c := ':') rfl).seq fun _ => (takes_givenChar (c := ':') rfl).seq fun _ =>
      (htail (7 - head.length)).seq fun tail =>
        .pure (Ipv6Addr.ofSegments (head ++ List.replicate (8 - head.length - tail.length) 0 ++ tail))
    obtain ⟨w, rfl, hw⟩ := hrest t' a u h
    exact ⟨v ++ w, by simp, forall_mem_append.mpr ⟨hc, hw⟩⟩

section Colon

theorem number_colon {radix maxDigits bound : Nat} (hr : radix ≤ 16) :
    number radix maxDigits bound zero (':' :: t) = none := by
  rw [eq_none_iff_forall_ne_some]
  rintro ⟨n, u⟩ h
  obtain ⟨v, hv, ht, hd⟩ := number_eq_some h
  cases v
  case nil => exact hv rfl
  case cons c v =>
    obtain ⟨rfl, -⟩ := List.cons.inj ht
    have h := toDigit_mono hr (hd ':' mem_cons_self)
    revert h
    decide

theorem ipv4Addr_colon : ipv4Addr (':' :: t) = none := by
  have h : number 10 3 256 false (':' :: t) = none := number_colon (by decide)
  simp [ipv4Addr, separator, octet, h]

theorem groups_colon (left : Nat) : groups left 0 (':' :: t) = ([], false, ':' :: t) := by
  cases left
  case zero => rfl
  case succ left => simp [groups, separator, ipv4Addr_colon, number_colon]

theorem ipv6Addr_colon (h : t.head? ≠ some ':') : ipv6Addr (':' :: t) = none := by
  have hc : givenChar ':' (':' :: t) = some ((), t) := rfl
  simp [ipv6Addr, groups_colon, hc, givenChar_of_ne h]

end Colon

theorem separator_of_ne {index : Nat} (hi : index ≠ 0) (h : t.head? ≠ some c) : separator c index r t = none := by
  simp [separator, hi, givenChar_of_ne h]

theorem head?_of_groups {left index : Nat} (hi : index ≠ 0) (h : (groups left index t).1 ≠ []) :
    t.head? = some ':' := by
  by_contra hn
  cases left
  case zero => exact h rfl
  case succ left => simp [groups, separator_of_ne hi hn] at h

theorem groups_of_nil {left index : Nat} (h : (groups left index t).1 = []) :
    groups left index t = ([], false, t) := by
  cases left
  case zero => rfl
  case succ left =>
    simp only [groups] at h ⊢
    split at h
    case h_1 => cases h
    case h_2 =>
      split at h
      case h_1 => cases h
      case h_2 => simp

theorem groups_first {left : Nat} (h : (groups (left + 1) 0 t).1 ≠ []) :
    (groups (left + 1) 0 t).1.length = 2 ∧ (groups (left + 1) 0 t).2.1 = true ∨
      ∃ n t', number 16 4 (2 ^ 16) true t = some (n, t') ∧
        groups (left + 1) 0 t = (n :: (groups left 1 t').1, (groups left 1 t').2) := by
  simp only [groups] at h ⊢
  split at h
  case h_1 => exact .inl ⟨rfl, rfl⟩
  case h_2 =>
    split at h
    case h_1 n t' hn => exact .inr ⟨n, t', hn, rfl⟩
    case h_2 => exact absurd rfl h

theorem eq_cons_of_head? (h : t.head? = some c) : ∃ u, t = c :: u :=
  ⟨t.tail, (cons_head?_tail h).symm⟩

theorem ipv6Addr_begins {a : Ipv6Addr} (h : ipv6Addr t = some (a, [])) :
    (∃ v u, v ≠ [] ∧ t = v ++ ':' :: u ∧ ∀ c ∈ v, (toDigit 16 c).isSome) ∨
      ∃ u, t = ':' :: ':' :: u ∧ u.head? ≠ some ':' := by
  simp only [ipv6Addr] at h
  by_cases hg : (groups 8 0 t).1 = []
  case pos =>
    rw [groups_of_nil hg] at h
    simp only [length_nil, Nat.reduceEqDiff, if_false, Bool.false_eq_true] at h
    obtain ⟨⟨_, t₁⟩, h₁, hr⟩ := bind_eq_some_iff.mp h
    obtain ⟨⟨_, t₂⟩, h₂, hs⟩ := bind_eq_some_iff.mp hr
    obtain rfl := givenChar_eq_some h₁
    obtain rfl := givenChar_eq_some h₂
    refine .inr ⟨t₂, rfl, fun hc => ?_⟩
    obtain ⟨u, rfl⟩ := eq_cons_of_head? hc
    simp [groups_colon] at hs
  case neg =>
    rcases groups_first hg with ⟨hl, hv⟩ | ⟨n, t', hn, ht⟩
    case inl => simp [hl, hv] at h
    case inr =>
      obtain ⟨v, hv, rfl, hd⟩ := number_eq_some hn
      suffices hc : t'.head? = some ':' by
        obtain ⟨u, rfl⟩ := eq_cons_of_head? hc
        exact .inl ⟨v, u, hv, rfl, hd⟩
      by_cases hg : (groups 7 1 t').1 = []
      case neg => exact head?_of_groups Nat.one_ne_zero hg
      case pos =>
        rw [ht, groups_of_nil hg] at h
        simp only [length_singleton, Nat.reduceEqDiff, if_false, Bool.false_eq_true] at h
        obtain ⟨⟨_, t₁⟩, h₁, -⟩ := bind_eq_some_iff.mp h
        rw [givenChar_eq_some h₁]
        rfl

end Reader

theorem parseIp_v6 {t : Text} {a : Ipv6Addr} (h : parseIp t = some (.v6 a)) : Reader.ipv6Addr t = some (a, []) := by
  unfold parseIp at h
  split at h
  case h_2 => cases h
  case h_1 ip hr =>
    cases h
    unfold Reader.ipAddr at hr
    split at hr
    case h_1 => cases hr
    case h_2 =>
      obtain ⟨⟨b, u⟩, hb, he⟩ := map_eq_some_iff.mp hr
      cases he
      exact hb

theorem isAddrChar_of_parseIp {t : Text} {ip : IpAddr} (h : parseIp t = some ip) : ∀ c ∈ t, Reader.isAddrChar c := by
  unfold parseIp Reader.ipAddr at h
  split at h
  case h_2 => cases h
  case h_1 x hr =>
    split at hr
    case h_1 a u hv =>
      cases hr
      obtain ⟨v, rfl, hc⟩ := Reader.takes_ipv4Addr t a [] hv
      simpa using hc
    case h_2 =>
      obtain ⟨⟨a, u⟩, ha, he⟩ := map_eq_some_iff.mp hr
      cases he
      obtain ⟨v, rfl, hv⟩ := Reader.takes_ipv6Addr t a [] ha
      simpa using hv

theorem parseIp_colon {t : Text} (h : t.head? ≠ some ':') : parseIp (':' :: t) = none := by
  simp [parseIp, Reader.ipAddr, Reader.ipv4Addr_colon, Reader.ipv6Addr_colon h]

end Engine
