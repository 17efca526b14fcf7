import Mathlib

-- A bounded queue between senders and one receiver. Dropping the receiver closes it and discards
-- what it held.
structure Mpsc (α : Type*) (cap : Nat) where
  queue : List α
  closed : Bool
  length_le : queue.length ≤ cap
deriving DecidableEq

namespace Mpsc

variable {α : Type*} {cap : Nat}

def empty : Mpsc α cap where
  queue := []
  closed := false
  length_le := cap.zero_le

-- What asking for a slot yields.
inductive Reserve
  | permit
  | full
  | closed
deriving DecidableEq

def tryReserve (c : Mpsc α cap) : Reserve :=
  if c.closed then .closed else if c.queue.length < cap then .permit else .full

-- Sends without waiting; `none` when the queue is full or the receiver is gone.
def trySend (c : Mpsc α cap) (a : α) : Option (Mpsc α cap) :=
  if h : c.closed = false ∧ c.queue.length < cap then
    some { c with queue := c.queue ++ [a], length_le := by simp; omega }
  else
    none

def recv (c : Mpsc α cap) : Option (α × Mpsc α cap) :=
  match h : c.queue with
  | [] => none
  | a :: q => some (a, { c with queue := q, length_le := by have := c.length_le; simp_all; omega })

-- The receiver takes up to `n` values.
def take (c : Mpsc α cap) (n : Nat) : Mpsc α cap :=
  { c with queue := c.queue.drop n, length_le := by have := c.length_le; simp; omega }

def dropReceiver (_ : Mpsc α cap) : Mpsc α cap :=
  { queue := [], closed := true, length_le := cap.zero_le }

@[simp]
theorem empty_queue : (empty : Mpsc α cap).queue = [] := rfl

@[simp]
theorem empty_closed : (empty : Mpsc α cap).closed = false := rfl

@[simp]
theorem take_zero (c : Mpsc α cap) : c.take 0 = c := by
  cases c
  simp [take]

theorem trySend_eq_some {c d : Mpsc α cap} {a : α} (h : c.trySend a = some d) :
    c.closed = false ∧ c.queue.length < cap ∧ d.queue = c.queue ++ [a] ∧ d.closed = false := by
  unfold trySend at h
  split at h
  case isTrue hc => cases h; exact ⟨hc.left, hc.right, rfl, hc.left⟩
  case isFalse => cases h

theorem closed_of_full {c : Mpsc α cap} (h : c.tryReserve = .full) : c.closed = false := by
  unfold tryReserve at h
  split at h
  case isTrue => cases h
  case isFalse hc => simpa using hc

theorem closed_of_closed {c : Mpsc α cap} (h : c.tryReserve = .closed) : c.closed = true := by
  unfold tryReserve at h
  split at h
  case isTrue hc => exact hc
  case isFalse => split at h <;> cases h

theorem recv_eq_some {c d : Mpsc α cap} {a : α} (h : c.recv = some (a, d)) :
    c.queue = a :: d.queue ∧ d.closed = c.closed := by
  unfold recv at h
  split at h
  case h_1 => cases h
  case h_2 hq => cases h; exact ⟨hq, rfl⟩

@[simp]
theorem trySend_getD_closed (c : Mpsc α cap) (a : α) : ((c.trySend a).getD c).closed = c.closed := by
  cases h : c.trySend a
  case none => rfl
  case some d =>
    have ⟨hc, _, _, hd⟩ := trySend_eq_some h
    exact hd.trans hc.symm

end Mpsc
