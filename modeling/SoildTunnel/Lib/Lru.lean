import Mathlib

-- A map of limited size that forgets what was not used for the longest time.
structure Lru (κ ν : Type*) (cap : Nat) where
  -- The least recently used item comes first.
  items : List (κ × ν)
  nodup : (items.map Prod.fst).Nodup
  length_le : items.length ≤ cap

namespace Lru

open List

variable {κ ν : Type*} {cap : Nat}

def empty : Lru κ ν cap where
  items := []
  nodup := nodup_nil
  length_le := cap.zero_le

def keys (m : Lru κ ν cap) : List κ :=
  m.items.map Prod.fst

variable [DecidableEq κ]

def find? (m : Lru κ ν cap) (k : κ) : Option ν :=
  (m.items.find? fun x => x.1 = k).map Prod.snd

theorem nodup_filter {l : List (κ × ν)} (h : (l.map Prod.fst).Nodup) (k : κ) :
    ((l.filter fun x => x.1 ≠ k).map Prod.fst).Nodup :=
  h.sublist (filter_sublist.map Prod.fst)

def erase (m : Lru κ ν cap) (k : κ) : Lru κ ν cap where
  items := m.items.filter fun x => x.1 ≠ k
  nodup := nodup_filter m.nodup k
  length_le := (length_filter_le _ _).trans m.length_le

theorem nodup_filter_append {l : List (κ × ν)} (h : (l.map Prod.fst).Nodup) (k : κ) (v : ν) :
    (((l.filter fun x => x.1 ≠ k) ++ [(k, v)]).map Prod.fst).Nodup := by
  rw [map_append, nodup_append]
  refine ⟨nodup_filter h k, nodup_singleton k, ?_⟩
  intro a ha b hb
  obtain ⟨x, hx, rfl⟩ := mem_map.mp ha
  rw [mem_singleton.mp hb]
  simpa using (mem_filter.mp hx).2

-- The item is the most recently used one from now on.
def put (m : Lru κ ν cap) (k : κ) (v : ν) : Lru κ ν cap :=
  let items := (m.items.filter fun x => x.1 ≠ k) ++ [(k, v)]
  if h : items.length ≤ cap then
    { items
      nodup := nodup_filter_append m.nodup k v
      length_le := h }
  else
    { items := items.tail
      nodup := (nodup_filter_append m.nodup k v).sublist ((tail_sublist _).map Prod.fst)
      length_le := by
        have h₁ := (length_filter_le (fun x => decide (x.1 ≠ k)) m.items).trans m.length_le
        rw [length_tail, length_append, length_singleton]
        omega }

variable {m : Lru κ ν cap} {k k' : κ} {v : ν}

theorem find?_eq_none : m.find? k = none ↔ k ∉ m.keys := by
  rw [find?, Option.map_eq_none_iff, List.find?_eq_none, keys, mem_map, not_exists]
  exact forall_congr' fun x => by simp

theorem find?_eq_some : m.find? k = some v ↔ (k, v) ∈ m.items := by
  rw [find?, Option.map_eq_some_iff]
  constructor
  case mp =>
    rintro ⟨x, hx, rfl⟩
    obtain rfl : x.1 = k := of_decide_eq_true (List.find?_some hx :)
    exact mem_of_find?_eq_some hx
  case mpr =>
    intro h
    have hs : (m.items.find? fun x => x.1 = k).isSome := List.find?_isSome.mpr ⟨(k, v), h, decide_eq_true rfl⟩
    obtain ⟨x, hx⟩ := Option.isSome_iff_exists.mp hs
    have hk : x.1 = k := of_decide_eq_true (List.find?_some hx :)
    refine ⟨x, hx, congrArg Prod.snd (?_ : x = (k, v))⟩
    exact inj_on_of_nodup_map m.nodup (mem_of_find?_eq_some hx) h hk

theorem items_put : (m.put k v).items =
    if ((m.items.filter fun x => x.1 ≠ k) ++ [(k, v)]).length ≤ cap then (m.items.filter fun x => x.1 ≠ k) ++ [(k, v)]
    else ((m.items.filter fun x => x.1 ≠ k) ++ [(k, v)]).tail := by
  unfold put
  dsimp only
  split <;> rfl

theorem items_put_sublist : (m.put k v).items.Sublist ((m.items.filter fun x => x.1 ≠ k) ++ [(k, v)]) := by
  rw [items_put]
  split
  case isTrue => exact .refl _
  case isFalse => exact tail_sublist _

theorem keys_put_sublist : (m.put k v).keys.Sublist ((m.keys.filter (· ≠ k)) ++ [k]) := by
  have h := (items_put_sublist (m := m) (k := k) (v := v)).map Prod.fst
  rw [map_append] at h
  rw [keys, keys, filter_map]
  exact h

theorem mem_keys_put_self (h : 0 < cap) : k ∈ (m.put k v).keys := by
  rw [keys, items_put]
  split
  case isTrue => simp
  case isFalse hl =>
    cases hf : m.items.filter fun x => x.1 ≠ k
    case nil => rw [hf] at hl; exact absurd h hl
    case cons => simp

-- What is forgotten has not been used for longer than all the others, and there is no room for another one.
theorem keys_of_evicted (hk : k' ∈ m.keys) (hne : k' ≠ k) (h : k' ∉ (m.put k v).keys) :
    ∃ rest, m.keys = k' :: rest ∧ k ∉ m.keys ∧ rest.length + 1 = cap := by
  have hf : k' ∈ (m.items.filter fun x => x.1 ≠ k).map Prod.fst := by
    obtain ⟨x, hx, rfl⟩ := mem_map.mp hk
    exact mem_map_of_mem (mem_filter.mpr ⟨hx, decide_eq_true hne⟩)
  rw [keys, items_put] at h
  split at h
  case isTrue => exact absurd (map_append ▸ mem_append_left _ hf) h
  case isFalse hl =>
    have hlen := m.length_le
    have hfl := length_filter_le (fun x => decide (x.1 ≠ k)) m.items
    rw [length_append, length_singleton] at hl
    have hall : m.items.filter (fun x => x.1 ≠ k) = m.items := filter_sublist.eq_of_length (by omega)
    have hkn : k ∉ m.keys := by
      intro hm
      obtain ⟨x, hx, rfl⟩ := mem_map.mp hm
      exact of_decide_eq_true (filter_eq_self.mp hall x hx) rfl
    rw [hall] at h hl
    cases hi : m.items
    case nil => simp [keys, hi] at hk
    case cons x rest =>
      have hkeys : m.keys = x.1 :: rest.map Prod.fst := by rw [keys, hi, map_cons]
      rw [hi, cons_append, tail_cons, map_append, mem_append, not_or] at h
      rw [hi, length_cons] at hl hlen
      rw [hkeys, mem_cons] at hk
      exact ⟨rest.map Prod.fst, by rw [hkeys, hk.resolve_right h.1], hkn, by rw [length_map]; omega⟩

end Lru
