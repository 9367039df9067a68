import TestAudit.Criteria.Title
import TestAudit.Json.Integer

namespace TestAudit

/-!
# Acceptance criteria

A criterion has an identifier, a description, and the least number of tests that
must have been executed for it. A catalog lists the criteria of a project, each
identifier once.
-/

/-- Where a criterion was defined. -/
inductive Provenance where
  | config
  | markdown
  | titles
  | discovered
  deriving Repr, DecidableEq

namespace Provenance

/-- The name of a provenance. -/
def name : Provenance → Text
  | .config => "config"
  | .markdown => "markdown"
  | .titles => "test-titles"
  | .discovered => "discovered"

/-- The provenance with a given name. -/
def ofName? (name : Text) : Option Provenance :=
  [config, markdown, titles, discovered].find? (·.name = name)

end Provenance

/-- An acceptance criterion. -/
structure Criterion where
  id : Text
  description : Text
  minimum : Nat := 1
  provenance : Provenance
  deriving Repr, DecidableEq

namespace Criterion

/--
Whether a text is the identifier of a criterion: the mark and decimal digits,
those of recent scripts included. Titles are read with fewer digits, so whatever
is an identifier in a title is one here.
-/
def isId (text : Text) : Bool :=
  match text.afterStart? Title.idMark with
  | some (c :: rest) => (c :: rest).all Text.isRecentDigit
  | _ => false

/-- A criterion is well formed when its identifier is one, and it asks for at least one test. -/
def WellFormed (criterion : Criterion) : Prop :=
  isId criterion.id = true ∧ 1 ≤ criterion.minimum

instance (criterion : Criterion) : Decidable criterion.WellFormed :=
  inferInstanceAs (Decidable (_ ∧ _))

/-- The minimum that a number means: less than one counts as one. -/
def minimumOfInteger (number : Int) : Nat :=
  max 1 number.toNat

/-- The minimum that a text means: one that is no integer counts as one. -/
def minimumOfText (text : Text) : Nat :=
  match Text.readInteger text with
  | .ok number => minimumOfInteger number
  | .error _ => 1

/--
The minimum that a JSON value means: one that denotes no integer counts as one,
but an infinite number is refused.
-/
def minimumOfJson? (value : Json.Value) : Option Nat :=
  match value.toInteger with
  | .ok number => some (minimumOfInteger number)
  | .error .infinite => none
  | .error _ => some 1

end Criterion

/-- The criteria of a project, and where they come from. -/
structure Catalog where
  criteria : List Criterion := []
  projectName : Option Text := none
  source : Text := []
  deriving Repr, DecidableEq

namespace Catalog

/-- Sets a criterion: a known identifier keeps its place, a new one goes last. -/
def setCriterion (criterion : Criterion) : List Criterion → List Criterion
  | [] => [criterion]
  | other :: criteria =>
      if other.id = criterion.id then
        criterion :: criteria
      else
        other :: setCriterion criterion criteria

/-- Whether the catalog has a criterion. -/
def isEmpty (catalog : Catalog) : Bool :=
  catalog.criteria.isEmpty

/-- A catalog of criteria, if there are any. -/
def ofCriteria? (criteria : List Criterion) (projectName : Option Text) (source : Text) :
    Option Catalog :=
  if criteria = [] then none else some { criteria, projectName, source }

end Catalog

end TestAudit
