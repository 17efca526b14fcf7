import Mathlib

-- Code that reads a buffer and computes with lengths of a machine's width, with all that can go wrong.
namespace Checked

open List

inductive Fault
  | bounds
  | overflow
  | endless
deriving DecidableEq

-- A computation may also leave early with nothing.
abbrev Code (α : Type) := OptionT (Except Fault) α

variable {α β : Type}

def fault (f : Fault) : Code α :=
  OptionT.mk (.error f)

def ofOption (o : Option α) : Code α :=
  OptionT.mk (.ok o)

def require (c : Prop) [Decidable c] : Code Unit :=
  if c then pure () else failure

-- Nothing goes wrong, and this comes out.
def Gives (x : Code α) (o : Option α) : Prop :=
  x.run = .ok o

instance [DecidableEq α] (x : Code α) (o : Option α) : Decidable (Gives x o) :=
  inferInstanceAs (Decidable (x.run = .ok o))

section Rules

variable {x : Code α} {f : α → Code β} {a : α} {o : Option β}

theorem gives_pure (a : α) : Gives (pure a : Code α) (some a) := rfl

theorem gives_ofOption (o : Option α) : Gives (ofOption o) o := rfl

theorem gives_failure : Gives (failure : Code α) none := rfl

theorem Gives.unique {o o' : Option α} (h : Gives x o) (h' : Gives x o') : o = o' :=
  Except.ok.inj (h.symm.trans h')

theorem Gives.bind (hx : Gives x (some a)) (hf : Gives (f a) o) : Gives (x >>= f) o := by
  unfold Gives at *
  rw [OptionT.run_bind, hx]
  exact hf

theorem Gives.bind_none (hx : Gives x none) : Gives (x >>= f) none := by
  unfold Gives at *
  rw [OptionT.run_bind, hx]
  rfl

-- Both ways at once: what comes out of the first part goes on or ends it.
theorem Gives.bind_option {oa : Option α} {g : α → Option β} (hx : Gives x oa)
    (hf : ∀ a, oa = some a → Gives (f a) (g a)) : Gives (x >>= f) (oa.bind g) := by
  cases oa
  case none => exact hx.bind_none
  case some a => exact hx.bind (hf a rfl)

theorem Gives.bind_cases (h : Gives (x >>= f) o) : Gives x none ∨ ∃ a, Gives x (some a) ∧ Gives (f a) o := by
  unfold Gives at *
  rw [OptionT.run_bind] at h
  rcases hx : x.run with e | (_ | a)
  · rw [hx] at h; cases h
  · exact .inl rfl
  · rw [hx] at h; exact .inr ⟨a, rfl, h⟩

theorem gives_require (c : Prop) [Decidable c] : Gives (require c) (if c then some () else none) := by
  unfold require
  split <;> rfl

theorem Gives.require {c : Prop} [Decidable c] {f : Unit → Code β} (hf : c → Gives (f ()) o) :
    Gives (require c >>= f) (if c then o else none) := by
  by_cases h : c
  case pos =>
    rw [if_pos h]
    have hc := gives_require c
    rw [if_pos h] at hc
    exact hc.bind (hf h)
  case neg =>
    rw [if_neg h]
    have hc := gives_require c
    rw [if_neg h] at hc
    exact hc.bind_none

theorem gives_mapM {f : α → Code β} {g : α → β} {l : List α} (h : ∀ a ∈ l, Gives (f a) (some (g a))) :
    Gives (l.mapM f) (some (l.map g)) := by
  induction l
  case nil => exact gives_pure []
  case cons a l ih =>
    have ⟨ha, hl⟩ := forall_mem_cons.mp h
    rw [mapM_cons]
    exact ha.bind ((ih hl).bind (gives_pure _))

-- If nothing goes wrong on the way through a list, it does not at any of its items.
theorem Gives.of_mapM {f : α → Code β} {l : List α} {o : Option (List β)} (h : Gives (l.mapM f) o)
    (hf : ∀ a ∈ l, ¬ Gives (f a) none) : ∀ a ∈ l, ∃ y, Gives (f a) (some y) := by
  induction l generalizing o
  case nil => exact nofun
  case cons b l ih =>
    have ⟨hb, hl⟩ := forall_mem_cons.mp hf
    rw [mapM_cons] at h
    obtain ⟨y, hy, h⟩ := h.bind_cases.resolve_left hb
    refine forall_mem_cons.mpr ⟨⟨y, hy⟩, ?_⟩
    obtain hn | ⟨ys, hys, -⟩ := h.bind_cases
    · exact ih hn hl
    · exact ih hys hl

theorem Gives.orElse {x y : Code α} {o o' : Option α} (hx : Gives x o) (hy : o = none → Gives y o') :
    Gives (x <|> y) (o.or o') := by
  unfold Gives at *
  rw [OptionT.run_orElse, hx]
  cases o
  case none => exact hy rfl
  case some a => rfl

end Rules

-- No buffer takes more than half of the address space.
structure Slice (width : Nat) where
  bytes : List UInt8
  length_lt : bytes.length < 2 ^ (width - 1)

namespace Slice

variable {width : Nat} (buf : Slice width)

def length : Nat :=
  buf.bytes.length

def get (i : Nat) : Code UInt8 :=
  ofOption buf.bytes[i]?

def index (i : Nat) : Code UInt8 :=
  match buf.bytes[i]? with
  | some b => pure b
  | none => fault .bounds

def slice (lo hi : Nat) : Code (List UInt8) :=
  if lo ≤ hi ∧ hi ≤ buf.length then pure ((buf.bytes.drop lo).take (hi - lo)) else fault .bounds

-- A part that need not be there.
def part (lo hi : Nat) : Code (Slice width) :=
  if lo ≤ hi ∧ hi ≤ buf.length then
    pure ⟨(buf.bytes.drop lo).take (hi - lo), by
      have := buf.length_lt
      simp
      omega⟩
  else failure

theorem gives_get (i : Nat) : Gives (buf.get i) buf.bytes[i]? := rfl

variable {buf}

theorem gives_index {i : Nat} (h : i < buf.length) : Gives (buf.index i) (some (buf.bytes.getD i 0)) := by
  have hi : buf.bytes[i]? = some (buf.bytes.getD i 0) := by
    rw [getD_eq_getElem?_getD, List.getElem?_eq_getElem h, Option.getD_some]
  unfold index
  rw [hi]
  rfl

theorem lt_of_le (buf : Slice width) {n : Nat} (hw : 32 ≤ width) (h : n ≤ buf.length + 2 ^ 30) : n < 2 ^ width := by
  have hl : buf.length < 2 ^ (width - 1) := buf.length_lt
  have hd : 2 ^ width = 2 * 2 ^ (width - 1) := by
    rw [← pow_succ', Nat.sub_add_cancel (by omega)]
  have hp : 2 ^ 31 ≤ 2 ^ (width - 1) := Nat.pow_le_pow_right (by decide) (by omega)
  omega

theorem gives_slice {lo hi : Nat} (h : lo ≤ hi) (h' : hi ≤ buf.length) :
    Gives (buf.slice lo hi) (some ((buf.bytes.drop lo).take (hi - lo))) := by
  unfold slice
  rw [if_pos ⟨h, h'⟩]
  rfl

end Slice

section Arithmetic

variable (width : Nat)

def add (a b : Nat) : Code Nat :=
  if a + b < 2 ^ width then pure (a + b) else fault .overflow

def checkedAdd (a b : Nat) : Code Nat :=
  if a + b < 2 ^ width then pure (a + b) else failure

variable {width}

theorem gives_add {a b : Nat} (h : a + b < 2 ^ width) : Gives (add width a b) (some (a + b)) := by
  unfold add
  rw [if_pos h]
  rfl

theorem gives_checkedAdd {a b : Nat} (h : a + b < 2 ^ width) : Gives (checkedAdd width a b) (some (a + b)) := by
  unfold checkedAdd
  rw [if_pos h]
  rfl

end Arithmetic

end Checked
