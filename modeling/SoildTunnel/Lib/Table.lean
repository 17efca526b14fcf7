import SoildTunnel.Lib.Delimited

-- Tables of keys and values written as one `key sep value` line per entry.

namespace Table

open List Delimited

variable {α : Type _} [DecidableEq α]

-- The value of a key; when a key occurs several times the last entry counts.
def get {κ ν : Type _} [DecidableEq κ] (entries : List (κ × ν)) (k : κ) : Option ν :=
  (entries.reverse.find? (·.fst = k)).map (·.snd)

def writeEntry (sep : α) (entry : List α × List α) : List α :=
  entry.fst ++ sep :: entry.snd

def write (sep lf : α) (entries : List (List α × List α)) : List α :=
  [lf].intercalate (entries.map <| writeEntry sep)

-- A line is an entry when it has a separator that is not its first symbol.
def readEntry (sep : α) (line : List α) : Option (List α × List α) :=
  (Delimited.cut sep line).filter (·.fst ≠ [])

def read (sep cr lf : α) (text : List α) : List (List α × List α) :=
  (Delimited.lines cr lf text).filterMap <| readEntry sep

section Get

variable {κ ν : Type _} [DecidableEq κ] {entries : List (κ × ν)} {k : κ} {v : ν}

theorem mem_of_get (h : get entries k = some v) : (k, v) ∈ entries := by
  simp only [get, Option.map_eq_some_iff] at h
  obtain ⟨⟨k', v'⟩, hf, rfl⟩ := h
  have hk := List.find?_some hf
  simp only [decide_eq_true_eq] at hk
  exact hk ▸ mem_reverse.mp (mem_of_find?_eq_some hf)

theorem get_of_mem (hn : (entries.map (·.fst)).Nodup) (h : (k, v) ∈ entries) : get entries k = some v := by
  cases hg : get entries k
  case none =>
    simp only [get, Option.map_eq_none_iff, List.find?_eq_none, mem_reverse,
      decide_eq_true_eq] at hg
    exact absurd rfl (hg (k, v) h)
  case some w =>
    have hw := mem_of_get hg
    have := inj_on_of_nodup_map hn h hw rfl
    simp_all

end Get

variable {sep cr lf : α}

-- A key that can be told from its value and from the other lines.
structure Key (sep cr lf : α) (k : List α) : Prop where
  nonempty : k ≠ []
  noSep    : sep ∉ k
  noBreak  : Delimited.NoBreak cr lf k

instance {k : List α} : Decidable (Key sep cr lf k) :=
  decidable_of_iff (k ≠ [] ∧ sep ∉ k ∧ Delimited.NoBreak cr lf k)
    ⟨fun ⟨h₁, h₂, h₃⟩ => ⟨h₁, h₂, h₃⟩, fun ⟨h₁, h₂, h₃⟩ => ⟨h₁, h₂, h₃⟩⟩

theorem readEntry_writeEntry {entry : List α × List α} (h : Key sep cr lf entry.fst) :
    readEntry sep (writeEntry sep entry) = some entry := by
  simp [readEntry, writeEntry, cut_append h.noSep, Option.filter, h.nonempty]

theorem read_write {entries : List (List α × List α)} (hne : entries ≠ [])
    (hs : sep ≠ cr ∧ sep ≠ lf) (hk : ∀ e ∈ entries, Key sep cr lf e.fst)
    (hv : ∀ e ∈ entries, Delimited.NoBreak cr lf e.snd) :
    read sep cr lf (write sep lf entries) = entries := by
  have hl : Delimited.lines cr lf (write sep lf entries) = entries.map (writeEntry sep) := by
    refine lines_intercalate (by simpa using hne) fun x hx => ?_
    obtain ⟨e, he, rfl⟩ := mem_map.mp hx
    exact (hk e he).noBreak.append <| noBreak_cons.mpr ⟨hs, hv e he⟩
  rw [read, hl, filterMap_map]
  have hf : entries.filterMap (readEntry sep ∘ writeEntry sep) = entries.filterMap some :=
    filterMap_congr fun e he => readEntry_writeEntry (hk e he)
  rw [hf, filterMap_some]

theorem noBreak_of_mem_read {text k v : List α} (h : (k, v) ∈ read sep cr lf text) : Delimited.NoBreak cr lf v := by
  simp only [read, mem_filterMap] at h
  obtain ⟨line, hl, hr⟩ := h
  have hc := cut_eq_some_iff.mp (Option.mem_filter_iff.mp hr).left
  exact (lines_noBreak hl).of_isInfix ⟨k ++ [sep], [], by simp [hc.left]⟩

end Table
