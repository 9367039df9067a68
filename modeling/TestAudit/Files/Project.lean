import TestAudit.Files.Tree

namespace TestAudit

/-!
# Projects

The project under test is a directory. Paths that the user gives are taken from
it, and paths inside it are shown without it.
-/

/-- The project under test. -/
structure Project where
  root : Path
  deriving Repr, DecidableEq

namespace Project

/-- The path that the user means by a text. -/
def resolve (project : Project) (text : Text) : Path :=
  project.root.join (.ofText text)

/--
A path as it is shown: from the project's root on if it leads inside the project,
and as it is written otherwise.
-/
def relative (project : Project) (workingDirectory : Path) (path : Path) : Text :=
  match project.root.relativeTo? (path.settled workingDirectory) with
  | some inside => if path.canLead then inside.toText else path.toText
  | none => path.toText

end Project

end TestAudit
