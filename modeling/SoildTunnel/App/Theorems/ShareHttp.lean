import SoildTunnel.App.ShareHttp

-- Where the header block of a request to the share ends.
namespace App.ShareHttp

open List

variable {p q pre buf input block : Bytes} {b : UInt8}

def blankLine : Bytes :=
  [CR, LF, CR, LF]

structure First (Ends : Bytes → Prop) (input block : Bytes) : Prop where
  isPrefix : block <+: input
  ends : Ends block
  least : ∀ q, q <+: block → Ends q → q = block

-- The bytes up to the first empty line and with it, if there is room for them.
def HeaderBlock (input block : Bytes) : Prop :=
  First (blankLine <:+ ·) input block ∧ block.length ≤ MAX_HEADER_BYTES

def runOf (p : Bytes) : Nat :=
  p.foldl nextRun 0

theorem runOf_concat : runOf (p ++ [b]) = nextRun (runOf p) b := by
  rw [runOf, foldl_append]
  rfl

def Matched (p : Bytes) : Prop :=
  runOf p = 4

theorem first_concat (hb : ∀ q, q <+: buf → ¬ Matched q) (hm : Matched (buf ++ [b])) :
    First Matched (buf ++ b :: input) block ↔ block = buf ++ [b] := by
  have hpre : buf ++ [b] <+: buf ++ b :: input := by simp
  have hq {q : Bytes} (hq : q <+: buf ++ [b]) (h : Matched q) : q = buf ++ [b] :=
    (prefix_concat_iff.mp hq).resolve_right fun hq => hb q hq h
  constructor
  case mp =>
    intro h
    obtain hp | hp := prefix_or_prefix_of_prefix h.isPrefix hpre
    case inl => exact hq hp h.ends
    case inr => exact (h.least _ hp hm).symm
  case mpr =>
    rintro rfl
    exact ⟨hpre, hm, fun q => hq⟩

-- The loop goes on until the matcher has come to its end, and stops for want of room.
theorem readHeader_eq_some (hb : ∀ q, q <+: buf → ¬ Matched q) : readHeader buf (runOf buf) input = some block ↔
      First Matched (buf ++ input) block ∧ block.length ≤ MAX_HEADER_BYTES := by
  induction input generalizing buf
  case nil =>
    refine ⟨nofun, fun ⟨h, _⟩ => ?_⟩
    exact absurd h.ends (hb block (by simpa using h.isPrefix))
  case cons b input ih =>
    rw [readHeader, ← runOf_concat]
    split
    case isFalse hl =>
      refine ⟨nofun, fun ⟨h, hm⟩ => ?_⟩
      exact absurd h.ends (hb block (prefix_of_prefix_length_le h.isPrefix (prefix_append _ _) (by omega)))
    case isTrue hl =>
      split
      case isTrue hm =>
        rw [first_concat hb hm, Option.some_inj]
        refine ⟨fun h => ⟨h.symm, by simpa [← h] using hl⟩, fun h => h.1.symm⟩
      case isFalse hm =>
        rw [ih fun q hq => ?_, append_assoc, singleton_append]
        obtain rfl | hq := prefix_concat_iff.mp hq
        case inl => exact hm
        case inr => exact hb q hq

theorem readHeaderBlock_eq_some :
    readHeaderBlock input = some block ↔ First Matched input block ∧ block.length ≤ MAX_HEADER_BYTES := by
  have hb : ∀ q, q <+: [] → ¬ Matched q := by
    intro q hq
    rw [prefix_nil.mp hq]
    exact nofun
  exact readHeader_eq_some hb

theorem take_isSuffix (p : Bytes) : blankLine.take (runOf p) <:+ p := by
  induction p using reverseRecOn
  case nil => exact suffix_rfl
  case append_singleton p b ih =>
    rw [runOf_concat, nextRun]
    split
    case isTrue h =>
      obtain ⟨rfl, hr | hr⟩ := h
      all_goals
        rw [hr] at ih ⊢
        exact suffix_append_self_iff.mpr ih
    case isFalse =>
      split
      case isTrue h =>
        obtain ⟨rfl, hr | hr⟩ := h
        all_goals
          rw [hr] at ih ⊢
          exact suffix_append_self_iff.mpr ih
      case isFalse => exact nil_suffix

theorem Matched.isSuffix (h : Matched p) : blankLine <:+ p := by
  have hs := take_isSuffix p
  rwa [h] at hs

def trailing (p : Bytes) : Nat :=
  (p.reverse.takeWhile (· = CR)).length

theorem trailing_concat : trailing (p ++ [b]) = if b = CR then trailing p + 1 else 0 := by
  rw [trailing, reverse_concat, takeWhile_cons]
  split <;> simp_all [trailing]

theorem runOf_parity (h : ∀ q, q <+: p → ¬ Matched q) : runOf p % 2 = trailing p % 2 ∧ runOf p < 4 := by
  induction p using reverseRecOn
  case nil => decide
  case append_singleton p b ih =>
    obtain ⟨hp, hl⟩ := ih fun q hq => h q (hq.trans (prefix_append _ _))
    have hn : ¬ nextRun (runOf p) b = 4 := runOf_concat (p := p) ▸ h _ prefix_rfl
    rw [runOf_concat, trailing_concat]
    unfold nextRun at hn ⊢
    by_cases hc : b = CR
    case pos =>
      subst hc
      have hf : ¬ (CR = LF ∧ (runOf p = 1 ∨ runOf p = 3)) := fun h => absurd h.1 (by decide)
      rw [if_neg hf] at hn ⊢
      rw [if_pos rfl]
      split at hn
      case isTrue hr => rw [if_pos hr]; omega
      case isFalse hr =>
        rw [if_neg hr]
        have hr := not_and.mp hr rfl
        omega
    case neg =>
      rw [if_neg fun h => hc h.1] at hn ⊢
      rw [if_neg hc]
      split at hn
      case isTrue hr => rw [if_pos hr]; omega
      case isFalse hr => rw [if_neg hr]; omega

-- The matcher comes to its end with an empty line that is the first, unless it starts at every second of a row.
theorem matched_iff (h : First (blankLine <:+ ·) input (pre ++ blankLine)) :
    Matched (pre ++ blankLine) ↔ trailing pre % 2 = 0 := by
  have hlt {q : Bytes} (hq : q <+: pre ++ blankLine) (hl : q.length < (pre ++ blankLine).length) : ¬ Matched q := by
    intro hm
    rw [h.least q hq hm.isSuffix] at hl
    exact absurd hl (lt_irrefl _)
  have hn : ∀ q, q <+: pre → ¬ Matched q := fun q hq =>
    hlt (hq.trans (prefix_append _ _)) (by have := hq.length_le; simp [blankLine]; omega)
  obtain ⟨hp, hl⟩ := runOf_parity hn
  -- With half of an empty line before it, the first empty line would end earlier.
  have h2 : runOf pre ≠ 2 := by
    intro hr
    have hs : blankLine <:+ pre ++ [CR, LF] := by
      have hs := take_isSuffix pre
      rw [hr] at hs
      exact suffix_append_self_iff.mpr hs
    have he := h.least (pre ++ [CR, LF]) ((prefix_append_right_inj pre).mpr ⟨[CR, LF], rfl⟩) hs
    exact absurd (append_cancel_left he) (by decide)
  have hm : runOf (pre ++ blankLine) = blankLine.foldl nextRun (runOf pre) := foldl_append ..
  rw [Matched, hm, ← hp]
  obtain hr | hr | hr : runOf pre = 0 ∨ runOf pre = 1 ∨ runOf pre = 3 := by omega
  all_goals
    rw [hr]
    decide

theorem exists_first {E : Bytes → Prop} (hp : p <+: input) (he : E p) : ∃ q, q <+: p ∧ First E input q := by
  induction hn : p.length using Nat.strong_induction_on generalizing p
  case h n ih =>
    by_cases hq : ∃ q, q <+: p ∧ E q ∧ q ≠ p
    case neg =>
      push Not at hq
      exact ⟨p, prefix_rfl, hp, he, hq⟩
    case pos =>
      obtain ⟨q, hqp, hq, hne⟩ := hq
      have hl : q.length < n := hn ▸ lt_of_le_of_ne hqp.length_le fun h => hne (hqp.eq_of_length h)
      obtain ⟨r, hr, hf⟩ := ih q.length hl (hqp.trans hp) hq rfl
      exact ⟨r, hr.trans hqp, hf⟩

theorem readHeaderBlock_eq_some_iff (input : Bytes) :
    (∀ block, readHeaderBlock input = some block ↔ HeaderBlock input block) ↔
      ∀ pre, HeaderBlock input (pre ++ blankLine) → trailing pre % 2 = 0 := by
  constructor
  case mp =>
    intro h pre hb
    exact (matched_iff hb.1).mp (readHeaderBlock_eq_some.mp ((h _).mpr hb)).1.ends
  case mpr =>
    intro h block
    have hm {block : Bytes} (hb : HeaderBlock input block) : Matched block := by
      obtain ⟨pre, rfl⟩ := hb.1.ends
      exact (matched_iff hb.1).mpr (h pre hb)
    rw [readHeaderBlock_eq_some]
    constructor
    case mp =>
      rintro ⟨hf, hl⟩
      refine ⟨⟨hf.isPrefix, hf.ends.isSuffix, fun q hq hs => ?_⟩, hl⟩
      obtain ⟨r, hr, hrf⟩ := exists_first (E := (blankLine <:+ ·)) (hq.trans hf.isPrefix) hs
      have hrq := hf.least r (hr.trans hq) (hm ⟨hrf, ((hr.trans hq).length_le).trans hl⟩)
      exact (hq.eq_of_length_le (hrq ▸ hr.length_le))
    case mpr =>
      rintro ⟨hf, hl⟩
      exact ⟨⟨hf.isPrefix, hm ⟨hf, hl⟩, fun q hq hs => hf.least q hq hs.isSuffix⟩, hl⟩

-- A line that ends in one carriage return too many hides the empty line behind it.
theorem readHeaderBlock_extra_return :
    let input := [65, CR, CR, LF, CR, LF]
    readHeaderBlock input = none ∧ HeaderBlock input input := by
  refine ⟨by decide +kernel, ⟨prefix_rfl, by decide, ?_⟩, by decide⟩
  have h : ∀ q ∈ [65, CR, CR, LF, CR, LF].inits, blankLine <:+ q → q = [65, CR, CR, LF, CR, LF] := by decide
  exact fun q hq => h q ((mem_inits ..).mpr hq)

end App.ShareHttp
