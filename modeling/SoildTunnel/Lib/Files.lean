import Mathlib

-- Named files: what a running system sees, and what it finds after a loss of power.
namespace Files

open Option

abbrev Data := List UInt8

-- The names, each with the file that it stands for. No file has two of them.
structure Names (P : Type*) where
  file : P → Option Nat
  fresh : Nat
  file_inj {p q : P} {i : Nat} : file p = some i → file q = some i → p = q
  file_lt {p : P} {i : Nat} : file p = some i → i < fresh

namespace Names

variable {P : Type*} [DecidableEq P]

def add (n : Names P) (p : P) : Names P where
  file r := if r = p then some n.fresh else n.file r
  fresh := n.fresh + 1
  file_inj {r s i} hr hs := by
    by_cases h₁ : r = p <;> by_cases h₂ : s = p
    · rw [h₁, h₂]
    · rw [if_pos h₁] at hr; rw [if_neg h₂] at hs; cases hr; exact absurd (n.file_lt hs) (lt_irrefl _)
    · rw [if_neg h₁] at hr; rw [if_pos h₂] at hs; cases hs; exact absurd (n.file_lt hr) (lt_irrefl _)
    · rw [if_neg h₁] at hr; rw [if_neg h₂] at hs; exact n.file_inj hr hs
  file_lt {r i} hr := by
    split at hr
    case isTrue => cases hr; exact Nat.lt_succ_self _
    case isFalse => exact Nat.lt_succ_of_lt (n.file_lt hr)

-- The file of the name, a new one if there is none.
def create (n : Names P) (p : P) : Names P × Nat :=
  match n.file p with
  | some i => (n, i)
  | none => (n.add p, n.fresh)

def remove (n : Names P) (p : P) : Names P where
  file r := if r = p then none else n.file r
  fresh := n.fresh
  file_inj hr hs := n.file_inj (ite_none_left_eq_some.mp hr).2 (ite_none_left_eq_some.mp hs).2
  file_lt hr := n.file_lt (ite_none_left_eq_some.mp hr).2

-- Takes the name `q` for the file that has the name `p`.
def move (n : Names P) (p q : P) {i : Nat} (h : n.file p = some i) : Names P where
  file r := if r = q then some i else if r = p then none else n.file r
  fresh := n.fresh
  file_inj {r s j} hr hs := by
    have hn : ∀ t, t ≠ q → (if t = p then none else n.file t) ≠ some i := by
      intro t _ ht
      have ⟨hp, ht⟩ := ite_none_left_eq_some.mp ht
      exact hp (n.file_inj ht h)
    by_cases h₁ : r = q <;> by_cases h₂ : s = q
    · rw [h₁, h₂]
    · rw [if_pos h₁] at hr; rw [if_neg h₂, ← hr] at hs; exact absurd hs (hn s h₂)
    · rw [if_pos h₂] at hs; rw [if_neg h₁, ← hs] at hr; exact absurd hr (hn r h₁)
    · rw [if_neg h₁] at hr; rw [if_neg h₂] at hs
      exact n.file_inj (ite_none_left_eq_some.mp hr).2 (ite_none_left_eq_some.mp hs).2
  file_lt {r j} hr := by
    split at hr
    case isTrue => cases hr; exact n.file_lt h
    case isFalse => exact n.file_lt (ite_none_left_eq_some.mp hr).2

def rename (n : Names P) (p q : P) : Option (Names P) :=
  match h : n.file p with
  | some _ => some (n.move p q h)
  | none => none

variable {n n' : Names P} {p q r : P} {i : Nat}

theorem file_create (n : Names P) (p : P) : (n.create p).1.file p = some (n.create p).2 := by
  unfold create
  split
  case h_1 i h => exact h
  case h_2 => exact if_pos rfl

theorem file_create_of_ne (h : r ≠ p) : (n.create p).1.file r = n.file r := by
  unfold create
  split
  case h_1 => rfl
  case h_2 => exact if_neg h

theorem create_ne (h : r ≠ p) (hr : n.file r = some i) : (n.create p).2 ≠ i := by
  rintro rfl
  exact h ((n.create p).1.file_inj ((file_create_of_ne h).trans hr) (file_create n p))

theorem file_remove_of_ne (h : r ≠ p) : (n.remove p).file r = n.file r :=
  if_neg h

theorem rename_eq_some (h : n.rename p q = some n') : n'.file q = n.file p ∧ (n.file p).isSome := by
  unfold rename at h
  split at h
  case h_1 i hi => cases h; simp [move, hi]
  case h_2 => cases h

end Names

-- A disk: what a system starts from.
structure Disk (P : Type*) where
  names : Names P
  data : Nat → Data

-- A running system. It knows which files have not reached the disk, and the earlier states of the
-- names, which the disk may still have.
structure Fs (P : Type*) extends Disk P where
  dirty : Nat → Bool
  past : List (Names P)

-- Writes at a position of a file, which may lie behind its end.
def overwrite (old : Data) (offset : Nat) (new : Data) : Data :=
  old.take offset ++ List.replicate (offset - old.length) 0 ++ new ++ old.drop (offset + new.length)

theorem overwrite_length (old new : Data) : overwrite old old.length new = old ++ new := by
  simp [overwrite]

variable {P : Type*}

def Disk.read (d : Disk P) (p : P) : Option Data :=
  (d.names.file p).map d.data

def Disk.mount (d : Disk P) : Fs P where
  toDisk := d
  dirty _ := false
  past := []

namespace Fs

def writeAt (fs : Fs P) (i offset : Nat) (x : Data) : Fs P :=
  { fs with
    data := fun j => if j = i then overwrite (fs.data i) offset x else fs.data j
    dirty := fun j => j = i || fs.dirty j }

def sync (fs : Fs P) (i : Nat) : Fs P :=
  { fs with dirty := fun j => j ≠ i && fs.dirty j }

-- What may be there when the system stops: the names as they are or as they were, and the data of
-- every file that has reached the disk.
structure Survives (fs : Fs P) (d : Disk P) : Prop where
  names : d.names ∈ fs.names :: fs.past
  data : ∀ i, fs.dirty i = false → d.data i = fs.data i

-- The file with the name `p` is as it was on the disk, and has reached it.
structure Keeps (d : Disk P) (p : P) (fs : Fs P) : Prop where
  file : ∀ n ∈ fs.names :: fs.past, n.file p = d.names.file p
  data : ∀ i, d.names.file p = some i → fs.data i = d.data i
  clean : ∀ i, d.names.file p = some i → fs.dirty i = false

variable {fs fs' : Fs P} {d d' : Disk P} {p q : P} {i : Nat} {x : Data}

-- A process that stops while the system goes on leaves everything as it is.
theorem Survives.refl (fs : Fs P) : fs.Survives fs.toDisk where
  names := List.mem_cons_self
  data _ _ := rfl

theorem read_writeAt_of_ne {offset : Nat} (h : fs.names.file p ≠ some i) :
    (fs.writeAt i offset x).read p = fs.read p := by
  refine map_congr fun j hj => if_neg ?_
  rintro rfl
  exact h hj

theorem keeps_mount (d : Disk P) (p : P) : Keeps d p d.mount where
  file n hn := by rw [List.mem_singleton.mp hn]; rfl
  data _ _ := rfl
  clean _ _ := rfl

namespace Keeps

theorem file_names (h : Keeps d p fs) : fs.names.file p = d.names.file p :=
  h.file fs.names List.mem_cons_self

theorem file_cons (h : Keeps d p fs) {names : Names P} (hn : names.file p = fs.names.file p) :
    ∀ n ∈ names :: fs.names :: fs.past, n.file p = d.names.file p := by
  intro n hm
  rcases List.mem_cons.mp hm with rfl | hm
  · rw [hn, h.file_names]
  · exact h.file n hm

theorem map_file (h : Keeps d p fs) {n : Names P} (hn : n ∈ fs.names :: fs.past) {data : Nat → Data}
    (hd : ∀ i, fs.dirty i = false → data i = fs.data i) : (n.file p).map data = d.read p := by
  rw [h.file n hn]
  exact map_congr fun i hi => (hd i (h.clean i hi)).trans (h.data i hi)

theorem read_eq (h : Keeps d p fs) (hs : fs.Survives d') : d'.read p = d.read p :=
  h.map_file hs.names hs.data

end Keeps

variable [DecidableEq P]

def openTruncate (fs : Fs P) (p : P) : Fs P × Nat :=
  let (names, i) := fs.names.create p
  ({ names
     data := fun j => if j = i then [] else fs.data j
     dirty := fun j => j = i || fs.dirty j
     past := fs.names :: fs.past }, i)

def rename (fs : Fs P) (p q : P) : Option (Fs P) :=
  (fs.names.rename p q).map fun names => { fs with names, past := fs.names :: fs.past }

def remove (fs : Fs P) (p : P) : Fs P :=
  { fs with names := fs.names.remove p, past := fs.names :: fs.past }

-- The operations on the file with the name `q`.
inductive Local (q : P) : Fs P → Fs P → Prop
  | refl (fs : Fs P) : Local q fs fs
  | openTruncate (fs : Fs P) : Local q fs (fs.openTruncate q).1
  | writeAt (fs : Fs P) {i : Nat} (offset : Nat) (x : Data) (h : fs.names.file q = some i) :
    Local q fs (fs.writeAt i offset x)
  | sync (fs : Fs P) (i : Nat) : Local q fs (fs.sync i)
  | remove (fs : Fs P) : Local q fs (fs.remove q)

theorem Local.read_eq (h : Local q fs fs') (hn : p ≠ q) : fs'.read p = fs.read p := by
  cases h
  case refl => rfl
  case openTruncate =>
    change ((fs.names.create q).1.file p).map _ = _
    rw [Names.file_create_of_ne hn]
    exact map_congr fun j hj => if_neg (Names.create_ne hn hj).symm
  case writeAt h => exact read_writeAt_of_ne fun hp => hn (fs.names.file_inj hp h)
  case sync => rfl
  case remove => exact congrArg (Option.map fs.data) (Names.file_remove_of_ne hn)

theorem rename_eq_some (h : fs.rename q p = some fs') :
    ∃ names, fs.names.rename q p = some names ∧ fs' = { fs with names, past := fs.names :: fs.past } := by
  have ⟨names, hn, he⟩ := map_eq_some_iff.mp h
  exact ⟨names, hn, he.symm⟩

theorem read_rename (h : fs.rename q p = some fs') : fs'.read p = fs.read q := by
  have ⟨names, hn, he⟩ := rename_eq_some h
  rw [he]
  exact congrArg (Option.map fs.data) (Names.rename_eq_some hn).1

theorem Keeps.of_local (h : Keeps d p fs) (hl : Local q fs fs') (hn : p ≠ q) : Keeps d p fs' := by
  cases hl
  case refl => exact h
  case openTruncate =>
    have hi : ∀ j, d.names.file p = some j → j ≠ (fs.names.create q).2 :=
      fun j hj => (Names.create_ne hn (h.file_names.trans hj)).symm
    exact {
      file := h.file_cons (Names.file_create_of_ne hn)
      data := fun j hj => (if_neg (hi j hj)).trans (h.data j hj)
      clean := fun j hj => by simp [openTruncate, hi j hj, h.clean j hj] }
  case writeAt i offset x hq =>
    have hi : ∀ j, d.names.file p = some j → j ≠ i := by
      rintro j hj rfl
      exact hn (fs.names.file_inj (h.file_names.trans hj) hq)
    exact {
      file := h.file
      data := fun j hj => (if_neg (hi j hj)).trans (h.data j hj)
      clean := fun j hj => by simp [writeAt, hi j hj, h.clean j hj] }
  case sync => exact { h with clean := fun j hj => by simp [sync, h.clean j hj] }
  case remove => exact { h with file := h.file_cons (Names.file_remove_of_ne hn) }

theorem Keeps.rename (h : Keeps d p fs) (hq : fs.names.file q = some i) (hc : fs.dirty i = false)
    (hr : fs.rename q p = some fs') (hs : fs'.Survives d') :
    d'.read p = d.read p ∨ d'.read p = some (fs.data i) := by
  have ⟨names, hn, he⟩ := rename_eq_some hr
  subst he
  rcases List.mem_cons.mp hs.names with hm | hm
  · right
    rw [Disk.read, hm, (Names.rename_eq_some hn).1, hq, map_some, hs.data i hc]
  · left
    exact h.map_file hm hs.data

end Fs

end Files
