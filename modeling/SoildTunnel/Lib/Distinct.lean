import Mathlib

-- The first of the items with each key.
namespace Distinct

open List

variable {α κ : Type*} [DecidableEq κ] (key : α → κ)

def distinctAfter (seen : List κ) : List α → List α
  | [] => []
  | a :: l => if key a ∈ seen then distinctAfter seen l else a :: distinctAfter (key a :: seen) l

def distinctBy (l : List α) : List α :=
  distinctAfter key [] l

def distinct [DecidableEq α] (l : List α) : List α :=
  distinctBy id l

variable {key} {a : α} {l : List α} {seen : List κ}

theorem mem_of_mem_distinctAfter (h : a ∈ distinctAfter key seen l) : a ∈ l := by
  induction l generalizing seen
  case nil => exact h
  case cons b l ih =>
    unfold distinctAfter at h
    split at h
    case isTrue => exact mem_cons_of_mem b (ih h)
    case isFalse =>
      rcases mem_cons.mp h with rfl | h
      · exact mem_cons_self
      · exact mem_cons_of_mem b (ih h)

theorem mem_distinct [DecidableEq α] : a ∈ distinct l ↔ a ∈ l := by
  have hd : ∀ seen : List α, a ∉ seen → a ∈ l → a ∈ distinctAfter id seen l := by
    induction l
    case nil => exact fun _ _ h => h
    case cons b l ih =>
      intro seen hs h
      unfold distinctAfter
      split
      case isTrue hb =>
        have hne : a ≠ b := fun he => hs (he ▸ hb)
        exact ih seen hs (mem_of_ne_of_mem hne h)
      case isFalse =>
        by_cases he : a = b
        case pos => exact mem_cons.mpr (.inl he)
        case neg => exact mem_cons_of_mem b (ih _ (by simp [he, hs]) (mem_of_ne_of_mem he h))
  exact ⟨mem_of_mem_distinctAfter, hd [] not_mem_nil⟩

theorem distinctAfter_sublist (seen : List κ) (l : List α) : (distinctAfter key seen l).Sublist l := by
  induction l generalizing seen
  case nil => exact .slnil
  case cons b l ih =>
    unfold distinctAfter
    split
    case isTrue => exact (ih seen).cons b
    case isFalse => exact (ih _).cons_cons b

theorem key_not_mem_of_mem_distinctAfter (h : a ∈ distinctAfter key seen l) : key a ∉ seen := by
  induction l generalizing seen
  case nil => cases h
  case cons b l ih =>
    unfold distinctAfter at h
    split at h
    case isTrue => exact ih h
    case isFalse hb =>
      rcases mem_cons.mp h with rfl | h
      · exact hb
      · exact fun hs => ih h (mem_cons_of_mem _ hs)

theorem pairwise_distinctAfter (seen : List κ) (l : List α) :
    (distinctAfter key seen l).Pairwise fun a b => key a ≠ key b := by
  induction l generalizing seen
  case nil => exact .nil
  case cons b l ih =>
    unfold distinctAfter
    split
    case isTrue => exact ih seen
    case isFalse =>
      refine .cons (fun a ha he => ?_) (ih _)
      exact key_not_mem_of_mem_distinctAfter ha (he ▸ mem_cons_self)

theorem rel_of_mem_distinctAfter {R : α → α → Prop} (hr : ∀ a, R a a) (hp : l.Pairwise R)
    (ha : a ∈ distinctAfter key seen l) {b : α} (hb : b ∈ l) (he : key b = key a) : R a b := by
  induction l generalizing seen
  case nil => cases hb
  case cons c l ih =>
    have ⟨hc, hp⟩ := pairwise_cons.mp hp
    unfold distinctAfter at ha
    split at ha
    case isTrue hs =>
      rcases mem_cons.mp hb with rfl | hb
      · exact absurd (he ▸ hs) (key_not_mem_of_mem_distinctAfter ha)
      · exact ih hp ha hb
    case isFalse =>
      rcases mem_cons.mp ha with rfl | ha
      · rcases mem_cons.mp hb with rfl | hb
        · exact hr b
        · exact hc b hb
      · rcases mem_cons.mp hb with rfl | hb
        · exact absurd (he ▸ mem_cons_self) (key_not_mem_of_mem_distinctAfter ha)
        · exact ih hp ha hb

theorem distinctBy_eq_nil : distinctBy key l = [] ↔ l = [] := by
  cases l
  case nil => simp [distinctBy, distinctAfter]
  case cons => simp [distinctBy, distinctAfter]

theorem pairwise_distinctBy (l : List α) : (distinctBy key l).Pairwise fun a b => key a ≠ key b :=
  pairwise_distinctAfter [] l

theorem nodup_distinct [DecidableEq α] (l : List α) : (distinct l).Nodup :=
  pairwise_distinctBy l

theorem distinctAfter_eq_self (hp : l.Pairwise fun a b => key a ≠ key b) (hs : ∀ a ∈ l, key a ∉ seen) :
    distinctAfter key seen l = l := by
  induction l generalizing seen
  case nil => rfl
  case cons b l ih =>
    have ⟨hb, hp⟩ := pairwise_cons.mp hp
    rw [distinctAfter, if_neg (hs b mem_cons_self), ih hp]
    intro a ha hm
    rcases mem_cons.mp hm with he | hm
    · exact hb a ha he.symm
    · exact hs a (mem_cons_of_mem b ha) hm

theorem exists_key_distinctAfter (hs : key a ∉ seen) (h : a ∈ l) : ∃ b ∈ distinctAfter key seen l, key b = key a := by
  induction l generalizing seen
  case nil => cases h
  case cons c l ih =>
    unfold distinctAfter
    by_cases hc : key c = key a
    case pos =>
      rw [if_neg (hc ▸ hs)]
      exact ⟨c, mem_cons_self, hc⟩
    case neg =>
      have hl : a ∈ l := mem_of_ne_of_mem (fun he => hc (he ▸ rfl)) h
      split
      case isTrue => exact ih hs hl
      case isFalse =>
        have hn : key a ∉ key c :: seen := by simp [Ne.symm hc, hs]
        obtain ⟨b, hb, he⟩ := ih hn hl
        exact ⟨b, mem_cons_of_mem c hb, he⟩

theorem exists_key_distinctBy (h : a ∈ l) : ∃ b ∈ distinctBy key l, key b = key a :=
  exists_key_distinctAfter not_mem_nil h

theorem head?_distinctBy (a : α) (l : List α) : (distinctBy key (a :: l)).head? = some a := by
  simp [distinctBy, distinctAfter]

theorem mem_of_mem_distinctBy (h : a ∈ distinctBy key l) : a ∈ l :=
  mem_of_mem_distinctAfter h

end Distinct
