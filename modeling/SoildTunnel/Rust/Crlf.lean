import SoildTunnel.Rust.Pattern

-- Texts in lines that end in a carriage return and a line feed, with an empty line behind the last of them.
namespace Rust.Text

open List

variable {a b s u : Text}

variable {x : List UInt8}

theorem head_of_fromUtf8Lossy {y : UInt8} (hy : y < 0x80) {t : Text}
    (h : fromUtf8Lossy x = Char.ofNat y.toNat :: t) : ∃ r, x = y :: r ∧ t = fromUtf8Lossy r := by
  have hm := mem_of_mem_fromUtf8Lossy hy (h ▸ mem_cons_self : Char.ofNat y.toNat ∈ fromUtf8Lossy x)
  obtain ⟨p, r, rfl, hp⟩ := eq_append_cons_of_mem hm
  rw [fromUtf8Lossy_append_ascii hy] at h
  cases hl : fromUtf8Lossy p
  case nil =>
    by_cases hn : p = []
    case pos =>
      subst hn
      rw [hl, nil_append] at h
      exact ⟨r, rfl, (List.cons.inj h).2.symm⟩
    case neg => exact absurd hl (fromUtf8Lossy_ne_nil hn)
  case cons c t' =>
    rw [hl, cons_append] at h
    have hc : Char.ofNat y.toNat ∈ fromUtf8Lossy p := by
      rw [hl, (List.cons.inj h).1]
      exact mem_cons_self
    exact absurd (mem_of_mem_fromUtf8Lossy hy hc) hp

theorem tail_of_fromUtf8Lossy {c : Char} {t : Text} (h : fromUtf8Lossy x = c :: t) :
    ∃ r, r <:+ x ∧ t = fromUtf8Lossy r := by
  cases x
  case nil =>
    rw [fromUtf8Lossy] at h
    cases h
  case cons b r =>
    rw [fromUtf8Lossy] at h
    split at h
    case isTrue => exact ⟨r, suffix_cons b r, (List.cons.inj h).2.symm⟩
    case isFalse =>
      split at h
      case h_1 => exact ⟨r, suffix_cons b r, (List.cons.inj h).2.symm⟩
      case h_2 => exact ⟨_, (drop_suffix _ r).trans (suffix_cons b r), (List.cons.inj h).2.symm⟩

theorem crlf_of_fromUtf8Lossy {p q : Text} (h : fromUtf8Lossy x = p ++ '\r' :: '\n' :: q) : [13, 10] <:+: x := by
  induction p generalizing x
  case nil =>
    obtain ⟨r, rfl, hr⟩ := head_of_fromUtf8Lossy (y := 13) (by decide) h
    obtain ⟨r, rfl, _⟩ := head_of_fromUtf8Lossy (y := 10) (by decide) hr.symm
    exact (prefix_append [13, 10] r).isInfix
  case cons c p ih =>
    obtain ⟨r, hr, ht⟩ := tail_of_fromUtf8Lossy h
    exact (ih ht.symm).trans hr.isInfix

section Head

theorem splitOnce_skip {p w : Text} (h : '\n' ∉ s) : splitOnce ('\r' :: '\n' :: p) (s ++ '\r' :: w) =
      (splitOnce ('\r' :: '\n' :: p) ('\r' :: w)).map fun r => (s ++ r.1, r.2) := by
  induction s
  case nil =>
    rw [nil_append]
    cases splitOnce ('\r' :: '\n' :: p) ('\r' :: w) <;> rfl
  case cons c s ih =>
    have hp : ¬ List.isPrefixOf ('\r' :: '\n' :: p) (c :: (s ++ '\r' :: w)) := by
      rw [List.isPrefixOf_iff_prefix, cons_prefix_cons]
      rintro ⟨_, hp⟩
      cases s
      case nil => exact absurd (cons_prefix_cons.mp hp).1 (by decide)
      case cons d s => exact h (by rw [(cons_prefix_cons.mp hp).1]; simp)
    rw [cons_append, splitOnce, if_neg hp, ih fun hm => h (mem_cons_of_mem c hm), Option.map_map]
    rfl

theorem splitOnce_blank (h : '\n' ∉ s) :
    splitOnce ['\r', '\n', '\r', '\n'] (s ++ '\r' :: '\n' :: '\r' :: '\n' :: b) = some (s, b) := by
  rw [splitOnce_skip h]
  change some (s ++ [], b) = some (s, b)
  rw [append_nil]

theorem splitOnce_line (h : '\n' ∉ s) (hu : ¬ ['\r', '\n'] <+: u) :
    splitOnce ['\r', '\n', '\r', '\n'] (s ++ '\r' :: '\n' :: u) =
      (splitOnce ['\r', '\n', '\r', '\n'] u).map fun p => (s ++ '\r' :: '\n' :: p.1, p.2) := by
  have hp : ¬ List.isPrefixOf ['\r', '\n', '\r', '\n'] ('\r' :: '\n' :: u) := by
    rw [List.isPrefixOf_iff_prefix, cons_prefix_cons, cons_prefix_cons]
    exact fun hp => hu hp.2.2
  have hp' : ¬ List.isPrefixOf ['\r', '\n', '\r', '\n'] ('\n' :: u) := by
    rw [List.isPrefixOf_iff_prefix, cons_prefix_cons]
    exact fun hp => absurd hp.1 (by decide)
  rw [splitOnce_skip h, splitOnce, if_neg hp, splitOnce, if_neg hp', Option.map_map, Option.map_map]
  rfl

-- The lines behind the first one, each with the line end before it.
def following (lines : List Text) : Text :=
  lines.flatMap fun line => '\r' :: '\n' :: line

theorem following_cons (l : Text) (lines : List Text) :
    following (l :: lines) = '\r' :: '\n' :: (l ++ following lines) := rfl

theorem not_crlf_line {l w : Text} (hl : l ≠ []) (h : '\n' ∉ l) : ¬ ['\r', '\n'] <+: l ++ '\r' :: w := by
  obtain ⟨c, l, rfl⟩ := exists_cons_of_ne_nil hl
  rw [cons_append, cons_prefix_cons]
  rintro ⟨_, hp⟩
  cases l
  case nil => exact absurd (cons_prefix_cons.mp hp).1 (by decide)
  case cons d l => exact h (by rw [(cons_prefix_cons.mp hp).1]; simp)

variable {lines : List Text}

theorem splitOnce_head (h : '\n' ∉ s) (hl : ∀ l ∈ lines, l ≠ [] ∧ '\n' ∉ l) :
    splitOnce ['\r', '\n', '\r', '\n'] (s ++ (following lines ++ '\r' :: '\n' :: '\r' :: '\n' :: b)) =
      some (s ++ following lines, b) := by
  induction lines generalizing s
  case nil =>
    rw [following, flatMap_nil, append_nil]
    exact splitOnce_blank h
  case cons l lines ih =>
    obtain ⟨hn, hf⟩ := hl l mem_cons_self
    have hi := ih hf fun l hm => hl l (mem_cons_of_mem _ hm)
    have hc : ∃ w, following lines ++ '\r' :: '\n' :: '\r' :: '\n' :: b = '\r' :: w := by
      cases lines
      case nil => exact ⟨_, rfl⟩
      case cons l' lines => exact ⟨_, rfl⟩
    obtain ⟨w, hw⟩ := hc
    have hu := not_crlf_line (w := w) hn hf
    rw [hw] at hi
    rw [following_cons, cons_append, cons_append, append_assoc, hw, splitOnce_line h hu, hi]
    rfl

theorem splitCrlf_head (h : '\n' ∉ s) (hl : ∀ l ∈ lines, '\n' ∉ l) : splitCrlf (s ++ following lines) = s :: lines := by
  induction lines generalizing s
  case nil =>
    have hn : splitOnce ['\r', '\n'] (s ++ following []) = none :=
      splitOnce_eq_none (c := '\n') (by decide) (by rwa [following, flatMap_nil, append_nil])
    rw [splitCrlf_eq, hn, Option.elim_none, following, flatMap_nil, append_nil]
  case cons l lines ih =>
    rw [splitCrlf_eq, following_cons, splitOnce_crlf h, Option.elim_some]
    dsimp only
    rw [ih (hl l mem_cons_self) fun l hm => hl l (mem_cons_of_mem _ hm)]

theorem fromUtf8Lossy_head (x : List UInt8) (lines : List (List UInt8)) (r : List UInt8) :
    fromUtf8Lossy (x ++ (lines.flatMap (fun l => 13 :: 10 :: l) ++ 13 :: 10 :: 13 :: 10 :: r)) =
      fromUtf8Lossy x ++ (following (lines.map fromUtf8Lossy) ++ '\r' :: '\n' :: '\r' :: '\n' :: fromUtf8Lossy r) := by
  induction lines generalizing x
  case nil =>
    rw [flatMap_nil, nil_append, fromUtf8Lossy_crlf]
    rw [show 13 :: 10 :: r = [] ++ 13 :: 10 :: r from rfl, fromUtf8Lossy_crlf, fromUtf8Lossy]
    rfl
  case cons l lines ih =>
    rw [flatMap_cons, cons_append, cons_append, cons_append, cons_append, append_assoc,
      fromUtf8Lossy_crlf, ih]
    rw [map_cons, following_cons, cons_append, cons_append, append_assoc]

end Head

end Rust.Text
