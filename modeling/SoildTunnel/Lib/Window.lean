import SoildTunnel.Lib.Octets

-- Reading a message at a position: what is there from the position on says what is read.
namespace Window

variable {α : Type*}

structure At (msg : List α) (pos : Nat) (rest : List α) : Prop where
  le : pos ≤ msg.length
  drop : msg.drop pos = rest

namespace At

variable {msg rest a b : List α} {pos : Nat}

theorem start (msg : List α) : At msg 0 msg :=
  ⟨Nat.zero_le _, rfl⟩

theorem length (h : At msg pos rest) : msg.length = pos + rest.length := by
  have hl := h.le
  rw [← h.drop, List.length_drop]
  omega

theorem skip (h : At msg pos (a ++ b)) : At msg (pos + a.length) b where
  le := by
    rw [h.length, List.length_append]
    omega
  drop := by rw [← List.drop_drop, h.drop, List.drop_left]

theorem tail {x : α} (h : At msg pos (x :: rest)) : At msg (pos + 1) rest :=
  skip (a := [x]) h

theorem cast {pos' : Nat} (h : At msg pos rest) (hp : pos = pos') : At msg pos' rest :=
  hp ▸ h

theorem getElem? (h : At msg pos rest) (i : Nat) : msg[pos + i]? = rest[i]? := by
  rw [← h.drop, List.getElem?_drop]

theorem head {x : α} (h : At msg pos (x :: rest)) : msg[pos]? = some x :=
  h.getElem? 0

theorem take (h : At msg pos (a ++ b)) : (msg.drop pos).take a.length = a := by
  rw [h.drop, List.take_left]

end At

theorem bigEndian_of_at {msg rest : List UInt8} {pos : Nat} {n : UInt16} (h : At msg pos (Octets.toBytes16 n ++ rest)) :
    Octets.bigEndian ((msg.drop pos).take 2) = n.toNat := by
  have ht : (msg.drop pos).take 2 = Octets.toBytes16 n := h.take
  rw [ht, Octets.bigEndian_toBytes16]

theorem At.pair {msg rest : List UInt8} {pos : Nat} {n : UInt16} (h : At msg pos (Octets.toBytes16 n ++ rest)) :
    ∃ hi lo, msg[pos]? = some hi ∧ msg[pos + 1]? = some lo ∧ hi.toNat * 256 + lo.toNat = n.toNat := by
  refine ⟨_, _, h.head, h.tail.head, ?_⟩
  have hn := Octets.bigEndian_toBytes16 n
  simpa [Octets.bigEndian, Octets.toBytes16] using hn

-- What is known of a message from a first part of it stays.
def Early (o o' : Option α) : Prop :=
  ∀ a, o = some a → o' = some a

namespace Early

variable {β : Type*} {o o' : Option α}

theorem none : Early Option.none o := by
  intro a h
  cases h

theorem bind {f f' : α → Option β} (h : Early o o') (hf : ∀ a, Early (f a) (f' a)) : Early (o.bind f) (o'.bind f') := by
  intro b hb
  obtain ⟨a, ha, hb⟩ := Option.bind_eq_some_iff.mp hb
  exact Option.bind_eq_some_iff.mpr ⟨a, h a ha, hf a b hb⟩

theorem ite {c c' : Prop} [Decidable c] [Decidable c'] (hc : c → c') (h : c → Early o o') :
    Early (if c then o else Option.none) (if c' then o' else Option.none) := by
  by_cases hc₁ : c
  case pos =>
    rw [if_pos hc₁, if_pos (hc hc₁)]
    exact h hc₁
  case neg =>
    rw [if_neg hc₁]
    exact none

theorem getElem? {p msg : List α} (h : p <+: msg) (i : Nat) : Early p[i]? msg[i]? := by
  obtain ⟨rest, rfl⟩ := h
  intro a ha
  rw [List.getElem?_append_left (List.getElem?_eq_some_iff.mp ha).1, ha]

end Early

end Window
