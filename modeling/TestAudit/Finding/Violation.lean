import TestAudit.Distinct
import TestAudit.Rule.Catalog
import TestAudit.Json.Value
import TestAudit.Text.Blank

namespace TestAudit

/-!
# Violations

A violation is a rule match with its place in a file and the lines around it.
-/

/-- A positioned finding in a test file. -/
structure Violation where
  file : Text
  line : Int
  id : Text
  severity : Severity
  description : Text
  commandment : Text
  context : Text
  deriving Repr, DecidableEq

namespace Violation

/-- A violation is well formed when it has a line counted from one and some context. -/
def WellFormed (violation : Violation) : Prop :=
  1 ≤ violation.line ∧ violation.context ≠ []

instance (violation : Violation) : Decidable violation.WellFormed :=
  inferInstanceAs (Decidable (_ ∧ _))

/-- What tells violations of one run apart. -/
structure Key where
  file : Text
  line : Int
  id : Text
  deriving Repr, DecidableEq

/-- The key of a violation. -/
def key (violation : Violation) : Key where
  file := violation.file
  line := violation.line
  id := violation.id

/-- The order of violations within a file: by line, and by identifier within a line. -/
def precedes (first second : Violation) : Bool :=
  first.line < second.line ||
    (first.line == second.line && Text.le first.id second.id)

/-- A violation as a JSON object. -/
def toJson (violation : Violation) : Json.Value :=
  .object [
    ("file", .string violation.file),
    ("line", .integer violation.line),
    ("id", .string violation.id),
    ("severity", .string violation.severity.name),
    ("description", .string violation.description),
    ("rule", .string violation.commandment),
    ("context", .string violation.context)]

end Violation

end TestAudit
