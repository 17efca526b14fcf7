import SoildTunnel.Rust.Text

-- Paths as the standard library sees them: by their components.
namespace Rust

inductive Component
  | rootDir
  | curDir
  | parentDir
  | normal (name : Text)
deriving DecidableEq

abbrev Path := List Component

namespace Path

def fileName (p : Path) : Option Text :=
  match p.getLast? with
  | some (.normal name) => some name
  | _ => none

def parent (p : Path) : Option Path :=
  match p.getLast? with
  | none => none
  | some .rootDir => none
  | some _ => some p.dropLast

-- For names that are a component of their own.
def setFileName (p : Path) (name : Text) : Path :=
  (if p.fileName.isSome then p.dropLast else p) ++ [.normal name]

theorem setFileName_ne {p : Path} {name : Text} (h : p.fileName ≠ some name) : p.setFileName name ≠ p := by
  unfold setFileName
  split
  case isFalse => simp
  case isTrue =>
    intro he
    have hl : p.getLast? = some (.normal name) := by rw [← he]; simp
    exact h (by rw [fileName, hl])

end Path

end Rust
