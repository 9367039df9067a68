import Mathlib.Data.List.Forall2
import TestAudit.Run.Results

namespace TestAudit

/-!
# The specs of a document

A document is a tree of suites. Its suites are listed with their locations, each before
the suites nested in it, and its specs suite by suite. A spec is read as a record without
a look at shapes: where a value has the wrong one, a default stands for it.
-/

namespace Json.Value

/-- The items of an array; any other value has none. -/
def elements : Value → List Value
  | .array items => items
  | _ => []

/-- The characters of a string; any other value has none. -/
def characters : Value → Text
  | .string text => text
  | _ => []

theorem member_cons
    (name other : Text)
    (value : Value)
    (members : List (Text × Value)) :
    (object ((name, value) :: members)).member other =
      if name = other then value else (object members).member other := by
  unfold member
  by_cases same : name = other
  · simp [same]
  · simp [List.lookup_cons, same, beq_eq_false_iff_ne.mpr (Ne.symm same)]

end Json.Value

namespace Results

/-! ## Suites -/

mutual

/-- The suites that a list of suites leads to, with their locations. -/
def suitesIn (location : Location) : Json.Value → List (Location × Json.Value)
  | .array suites => suiteListIn location 0 suites
  | _ => []

/-- The suites that some suites of a list lead to, the first of which has the given index. -/
def suiteListIn (location : Location) : Nat → List Json.Value → List (Location × Json.Value)
  | _, [] => []
  | index, suite :: suites =>
      (location.item index, suite) :: nestedIn (location.item index) suite ++
        suiteListIn location (index + 1) suites

/-- The suites nested in a suite. -/
def nestedIn (location : Location) : Json.Value → List (Location × Json.Value)
  | .object members => nestedInMember location members
  | _ => []

/-- The suites that the first of the members with that name leads to. -/
def nestedInMember (location : Location) :
    List (Text × Json.Value) → List (Location × Json.Value)
  | [] => []
  | (name, value) :: members =>
      if name = "suites".toList then
        suitesIn (location.member "suites") value
      else
        nestedInMember location members

end

/-- The suites of a document at any depth, each before those nested in it. -/
def documentSuites (document : Json.Value) : List (Location × Json.Value) :=
  suitesIn (Location.member [] "suites") (document.member "suites")

theorem nestedInMember_eq_suitesIn
    (location : Location)
    (members : List (Text × Json.Value)) :
    nestedInMember location members =
      suitesIn (location.member "suites") ((Json.Value.object members).member "suites") := by
  induction members with
  | nil => rfl
  | cons member members inductionHypothesis =>
      obtain ⟨name, value⟩ := member
      rw [nestedInMember, Json.Value.member_cons, inductionHypothesis]
      split
      · rfl
      · rfl

/-- The suites nested in a suite are those that its member of that name leads to. -/
theorem nestedIn_eq_suitesIn
    (location : Location)
    (suite : Json.Value) :
    nestedIn location suite =
      suitesIn (location.member "suites") (suite.member "suites") := by
  cases suite with
  | object members => exact nestedInMember_eq_suitesIn location members
  | _ => rfl

/-! ## Specs -/

/-- The first test of a spec; the others are not looked at. -/
def testOf (spec : Json.Value) : Json.Value :=
  (spec.member "tests").elements.head?.getD .null

/-- The attempts of the first test of a spec. -/
def attemptsOf (spec : Json.Value) : List Json.Value :=
  ((testOf spec).member "results").elements

/-- Whether the first test of a spec was attempted. -/
def isAttempted (spec : Json.Value) : Bool :=
  !(attemptsOf spec).isEmpty

/-- The milliseconds that a value denotes; one that denotes none counts as zero. -/
def millisecondsOf (value : Json.Value) : Int :=
  match value.toInteger with
  | .ok milliseconds => milliseconds
  | .error _ => 0

/-- The record of a spec in a suite with a file, if its first test was attempted. -/
def recordFor? (suiteFile : Text) (spec : Json.Value) : Option TestRecord :=
  (attemptsOf spec).getLast?.map fun final =>
    let title := (spec.member "title").characters
    let file := (spec.member "file").characters
    let status := statusOf (final.member "status")
    {
      title
      criterion := Title.criterion? title
      file := if file = [] then suiteFile else file
      line := lineOf (spec.member "line")
      status
      duration := millisecondsOf (final.member "duration")
      stdout := Text.stripColours ((final.member "stdout").elements.flatMap chunkText)
      errors := (final.member "errors").elements.map fun error =>
        Text.stripColours (errorText error)
      project := ((testOf spec).member "projectName").characters
      attempts := (attemptsOf spec).length
      flaky :=
        status = .passed &&
          (attemptsOf spec).dropLast.any fun attempt =>
            statusOf (attempt.member "status") = .failed
    }

/-- The specs of a suite, each with the file of the suite. -/
def specsOf (suite : Json.Value) : List (Text × Json.Value) :=
  (suite.member "specs").elements.map fun spec => ((suite.member "file").characters, spec)

/-- The specs of suites, suite by suite. -/
def specsIn (suites : List (Location × Json.Value)) : List (Text × Json.Value) :=
  suites.flatMap fun (_, suite) => specsOf suite

/-- The specs of a document: those of each suite, then those of the suites nested in it. -/
def documentSpecs (document : Json.Value) : List (Text × Json.Value) :=
  specsIn (documentSuites document)

/-- The records of specs with their suite files. -/
def recordsFor (specs : List (Text × Json.Value)) : List TestRecord :=
  specs.filterMap fun (suiteFile, spec) => recordFor? suiteFile spec

theorem recordsFor_append
    (first second : List (Text × Json.Value)) :
    recordsFor (first ++ second) = recordsFor first ++ recordsFor second :=
  List.filterMap_append

theorem recordsFor_cons
    (suiteFile : Text)
    (spec : Json.Value)
    (others : List (Text × Json.Value)) :
    recordsFor ((suiteFile, spec) :: others) =
      (recordFor? suiteFile spec).toList ++ recordsFor others := by
  unfold recordsFor
  cases isRecord : recordFor? suiteFile spec <;> simp [isRecord]

/-- The attempted specs have a record each, in order. -/
theorem forall₂_recordsFor
    (specs : List (Text × Json.Value)) :
    List.Forall₂ (fun (suiteFile, spec) record => recordFor? suiteFile spec = some record)
      (specs.filter fun (_, spec) => isAttempted spec) (recordsFor specs) := by
  induction specs with
  | nil => exact .nil
  | cons first others inductionHypothesis =>
      obtain ⟨suiteFile, spec⟩ := first
      unfold recordsFor at inductionHypothesis ⊢
      obtain notAttempted | ⟨earlier, final, shape⟩ := List.eq_nil_or_concat (attemptsOf spec)
      · simpa [isAttempted, recordFor?, notAttempted] using inductionHypothesis
      · simpa [isAttempted, recordFor?, shape] using inductionHypothesis

end Results

end TestAudit
