import TestAudit.Files.Project
import TestAudit.Proofs.Files.WellFormed

namespace TestAudit.Project

/-!
# Places in a project

The places that a project keeps something in by convention are named from its root. Where the
root is there and no directory is closed, it can be told of each of them what is there.
-/

variable {project : Project} {tree : Tree} {place : Text}

/-- A text that names a place below the root of a project. -/
def IsInside (place : Text) : Prop :=
  (Path.ofText place).anchor = .current ∧
    ∀ name ∈ (Path.ofText place).names, Tree.IsEntryName name

instance (place : Text) : Decidable (IsInside place) :=
  instDecidableAnd

theorem resolve_of_isInside
    (inside : IsInside place) :
    project.resolve place = project.root.descend (Path.ofText place).names := by
  rw [resolve, Path.join, Path.isAbsolute, inside.1]
  rfl

end TestAudit.Project
