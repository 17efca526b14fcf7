import Mathlib

-- What happened in the past, told by a list with the latest event first.
namespace History

variable {α : Type*}

-- Something has happened that meets `P`, together with what was before it, and all events since then meet `Q`.
def Since (Q : α → Prop) (P : α → List α → Prop) : List α → Prop
  | [] => False
  | e :: past => P e past ∨ Q e ∧ Since Q P past

variable {Q : α → Prop} {P : α → List α → Prop}

@[simp]
theorem since_nil : Since Q P [] ↔ False := Iff.rfl

@[simp]
theorem since_cons {e : α} {past : List α} : Since Q P (e :: past) ↔ P e past ∨ Q e ∧ Since Q P past := Iff.rfl

end History
