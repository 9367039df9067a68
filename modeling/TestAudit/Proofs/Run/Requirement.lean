import TestAudit.Proofs.Run.Spec
import TestAudit.Proofs.Run.Suite

namespace TestAudit.Results

/-!
# What reading requires of a document

Every value that reading comes to must have a shape. The requirements of a document are
listed in the order in which they are looked at, however the tests of shapes turn out,
and reading stops at the first of them that is not met. If all are met, the records are
those of the specs, for which shapes no longer matter.
-/

/-! ## Requirements -/

/-- Whether a value has a shape; null passes for an empty list, an empty text or no duration. -/
def Shape.accepts : Shape → Json.Value → Bool
  | .list, .null | .list, .array _ => true
  | .object, .object _ => true
  | .string, .null | .string, .string _ => true
  | .number, .null | .number, .integer _ | .number, .real (.finite _ _ _) => true
  | .number, .string text => text = [] || (Text.readInteger text).isOk
  | _, _ => false

/-- A value that must have a shape, with its location. -/
structure Requirement where
  location : Location
  shape : Shape
  value : Json.Value

namespace Requirement

/-- The value has the shape that is required of it. -/
def isMet (requirement : Requirement) : Bool :=
  requirement.shape.accepts requirement.value

/-- Whether the value must be a duration, and is an infinite number. -/
def isInfinite (requirement : Requirement) : Bool :=
  match requirement.shape, requirement.value with
  | .number, .real (.infinite _) => true
  | _, _ => false

/-- The fault of a value that has not the shape required of it. -/
def fault (requirement : Requirement) : ReadingFault :=
  match requirement.shape, requirement.value with
  | .number, .real (.infinite _) => .infiniteDuration
  | shape, value => .malformed requirement.location shape value

theorem isInfinite_of_fault
    {requirement : Requirement}
    (infinite : requirement.fault = .infiniteDuration) :
    requirement.isInfinite = true := by
  unfold fault at infinite
  unfold isInfinite
  split at infinite
  · rfl
  · cases infinite

theorem eq_of_fault_eq_malformed
    {requirement : Requirement}
    {location : Location}
    {shape : Shape}
    {value : Json.Value}
    (isMalformed : requirement.fault = .malformed location shape value) :
    requirement = ⟨location, shape, value⟩ := by
  unfold fault at isMalformed
  split at isMalformed
  · cases isMalformed
  · cases isMalformed
    rfl

end Requirement

/-- Looks at requirements in order, up to the first that is not met. -/
def verify : List Requirement → Except ReadingFault Unit
  | [] => .ok ()
  | requirement :: others =>
      if requirement.isMet then verify others else .error requirement.fault

theorem verify_append
    (first second : List Requirement) :
    verify (first ++ second) = verify first >>= fun _ => verify second := by
  induction first with
  | nil => rfl
  | cons requirement others inductionHypothesis =>
      rw [List.cons_append, verify, verify, inductionHypothesis]
      split
      · rfl
      · rfl

theorem verify_eq_ok_iff
    {requirements : List Requirement} :
    verify requirements = .ok () ↔ ∀ requirement ∈ requirements, requirement.isMet = true := by
  induction requirements with
  | nil => simp [verify]
  | cons requirement others inductionHypothesis =>
      rw [List.forall_mem_cons, ← inductionHypothesis, verify]
      split
      next met => simp [met]
      next notMet => simp [notMet]

theorem exists_of_verify_eq_error
    {requirements : List Requirement}
    {fault : ReadingFault}
    (fails : verify requirements = .error fault) :
    ∃ requirement ∈ requirements, requirement.isMet = false ∧ requirement.fault = fault := by
  induction requirements with
  | nil => cases fails
  | cons requirement others inductionHypothesis =>
      rw [verify] at fails
      split at fails
      next =>
        obtain ⟨found, member, isFault⟩ := inductionHypothesis fails
        exact ⟨found, List.mem_cons_of_mem _ member, isFault⟩
      next notMet =>
        cases fails
        exact ⟨requirement, List.mem_cons_self, by simpa using notMet, rfl⟩

/-! ## Steps of reading -/

/-- A step of reading looks at requirements, and has a result if all of them are met. -/
def Yields
    {α : Type}
    (requirements : List Requirement)
    (result : α)
    (checked : Except ReadingFault α) :
    Prop :=
  checked = (verify requirements).map fun _ => result

namespace Yields

variable {α β : Type} {location : Location} {value : Json.Value}

theorem pure
    (result : α) :
    Yields [] result (Pure.pure result) :=
  rfl

theorem bind
    {first second : List Requirement}
    {result : α}
    {final : β}
    {checked : Except ReadingFault α}
    {next : α → Except ReadingFault β}
    (here : Yields first result checked)
    (behind : Yields second final (next result)) :
    Yields (first ++ second) final (checked >>= next) := by
  unfold Yields at *
  rw [here, verify_append]
  cases verify first with
  | ok => exact behind
  | error fault => rfl

/-- What is made of the result of a step adds no requirement. -/
theorem bind_pure
    {requirements : List Requirement}
    {result : α}
    {checked : Except ReadingFault α}
    (here : Yields requirements result checked)
    (finish : α → β) :
    Yields requirements (finish result) (do return finish (← checked)) := by
  unfold Yields at *
  rw [here]
  cases verify requirements <;> rfl

/-- Two steps, neither of which depends on the other, look at their requirements in order. -/
theorem bind_bind_pure
    {γ : Type}
    {first second : List Requirement}
    {result : α}
    {other : β}
    {checked : Except ReadingFault α}
    {next : Except ReadingFault β}
    (here : Yields first result checked)
    (behind : Yields second other next)
    (finish : α → β → γ) :
    Yields (first ++ second) (finish result other)
      (do
        let value ← checked
        let following ← next
        return finish value following) :=
  here.bind (behind.bind_pure (finish result))

/-- A requirement that is met may be looked at first. -/
theorem met
    {requirement : Requirement}
    {others : List Requirement}
    {result : α}
    {checked : Except ReadingFault α}
    (isMet : requirement.isMet = true)
    (yields : Yields others result checked) :
    Yields (requirement :: others) result checked := by
  unfold Yields at *
  rw [yields, verify, if_pos isMet]

theorem asObject :
    Yields [⟨location, .object, value⟩] value (asObject location value) := by
  cases value <;> rfl

theorem asList :
    Yields [⟨location, .list, value⟩] value.elements (asList location value) := by
  cases value <;> rfl

theorem asText :
    Yields [⟨location, .string, value⟩] value.characters (asText location value) := by
  cases value <;> rfl

theorem asDuration :
    Yields [⟨location, .number, value⟩] (millisecondsOf value) (asDuration location value) := by
  cases value with
  | real number => cases number <;> rfl
  | string text =>
      cases text with
      | nil => rfl
      | cons c rest =>
          cases outcome : Text.readInteger (c :: rest) <;>
            simp [Yields, Results.asDuration, verify, Requirement.isMet, Shape.accepts,
              Requirement.fault, millisecondsOf, Json.Value.toInteger, outcome, Except.mapError,
              Except.map, Except.isOk, Except.toBool]
  | _ => rfl

end Yields

/-! ## Specs -/

/-- What the record of a spec requires, whose first test has a final attempt. -/
def recordRequirements
    (location finalLocation : Location)
    (spec test final : Json.Value) :
    List Requirement :=
  [ ⟨location.member "title", .string, spec.member "title"⟩,
    ⟨location.member "file", .string, spec.member "file"⟩,
    ⟨finalLocation.member "duration", .number, final.member "duration"⟩,
    ⟨finalLocation.member "stdout", .list, final.member "stdout"⟩,
    ⟨finalLocation.member "errors", .list, final.member "errors"⟩,
    ⟨(firstTest location).member "projectName", .string, test.member "projectName"⟩ ]

/-- What the items of an array require that must be objects. -/
def objectRequirements
    (location : Location)
    (index : Nat)
    (values : List Json.Value) :
    List Requirement :=
  (values.zipIdx index).map fun (value, index) => ⟨location.item index, .object, value⟩

/-- What the first test of a spec requires: all attempts, and the record if there is one. -/
def testRequirements (location : Location) (spec test : Json.Value) : List Requirement :=
  let results := (firstTest location).member "results"
  let attempts := (test.member "results").elements
  [⟨firstTest location, .object, test⟩, ⟨results, .list, test.member "results"⟩] ++
    objectRequirements results 0 attempts ++
    match attempts.getLast? with
    | none => []
    | some final =>
        recordRequirements location (results.item (attempts.length - 1)) spec test final

/-- What a spec requires; one without tests is read no further. -/
def specRequirements (location : Location) (spec : Json.Value) : List Requirement :=
  [⟨location, .object, spec⟩, ⟨location.member "tests", .list, spec.member "tests"⟩] ++
    match (spec.member "tests").elements with
    | [] => []
    | test :: _ => testRequirements location spec test

namespace Yields

variable {location : Location}

theorem asObjects
    (index : Nat)
    (values : List Json.Value) :
    Yields (objectRequirements location index values)
      ((values.zipIdx index).map fun (value, index) => (location.item index, value))
      (asObjects location index values) := by
  induction values generalizing index with
  | nil => rfl
  | cons value others inductionHypothesis =>
      exact asObject.bind ((inductionHypothesis (index + 1)).bind_pure _)

/-- A record is read from its fields, each of which requires something, one after the other. -/
theorem recordOf
    {spec test : Json.Value}
    {suiteFile : Text}
    {earlier : List (Location × Json.Value)}
    {finalLocation : Location}
    {final : Json.Value}
    {attempts : List Json.Value}
    (isTest : testOf spec = test)
    (areAttempts : attemptsOf spec = attempts ++ [final])
    (areEarlier : earlier.map Prod.snd = attempts)
    {record : TestRecord}
    (isRecord : recordFor? suiteFile spec = some record) :
    Yields (recordRequirements location finalLocation spec test final) record
      (recordOf suiteFile location (firstTest location) spec test earlier
        (finalLocation, final)) := by
  subst isTest areEarlier
  have same := isRecord
  simp only [recordFor?, areAttempts, List.getLast?_concat, Option.map_some, Option.some.injEq,
    List.length_append, List.length_map, List.length_singleton, List.dropLast_concat,
    List.any_map] at same
  subst same
  exact asText.bind (asText.bind (asDuration.bind ((asList.bind_pure _).bind
    ((asList.bind_pure _).bind (asText.bind (.pure _))))))

/-- The first test of a spec is read up to its attempts, and the record from the last of them. -/
theorem specRecord?
    (suiteFile : Text)
    (location : Location)
    (spec : Json.Value) :
    Yields (specRequirements location spec) (recordFor? suiteFile spec)
      (specRecord? suiteFile location spec) := by
  unfold specRequirements Results.specRecord?
  refine asObject.bind (asList.bind ?_)
  cases tests : (spec.member "tests").elements with
  | nil =>
      have noAttempt : attemptsOf spec = [] := by
        rw [attemptsOf, testOf, tests]
        rfl
      rw [recordFor?, noAttempt]
      exact .pure none
  | cons test others =>
      have isTest : testOf spec = test := by
        rw [testOf, tests]
        rfl
      have areAttempts : attemptsOf spec = (test.member "results").elements := by
        rw [attemptsOf, isTest]
      refine asObject.bind (asList.bind ?_)
      rw [← areAttempts]
      refine (asObjects 0 (attemptsOf spec)).bind ?_
      obtain none | ⟨earlier, final, shape⟩ := List.eq_nil_or_concat (attemptsOf spec)
      · rw [recordFor?, none]
        exact .pure _
      · rw [List.concat_eq_append] at shape
        have hasRecord : ∃ record, recordFor? suiteFile spec = some record := by
          rw [recordFor?, shape, List.getLast?_concat]
          exact ⟨_, rfl⟩
        obtain ⟨record, isRecord⟩ := hasRecord
        rw [isRecord, shape]
        simp only [List.getLast?_concat, List.zipIdx_append, List.map_append, List.zipIdx_cons,
          List.zipIdx_nil, List.map_cons, List.map_nil, List.dropLast_concat, List.length_append,
          List.length_singleton, Nat.add_sub_cancel, Nat.zero_add]
        refine (recordOf isTest shape ?_ isRecord).bind_pure some
        rw [List.map_map]
        simp [Function.comp_def, List.zipIdx_map_fst]

end Yields

/-! ## Documents -/

/-- What specs require, the first of which has the given index. -/
def specListRequirements
    (location : Location)
    (index : Nat)
    (specs : List Json.Value) :
    List Requirement :=
  (specs.zipIdx index).flatMap fun (spec, index) => specRequirements (location.item index) spec

/-- What a suite requires: its file, its specs, and that its nested suites are a list. -/
def suiteRequirements (location : Location) (suite : Json.Value) : List Requirement :=
  [ ⟨location, .object, suite⟩,
    ⟨location.member "file", .string, suite.member "file"⟩,
    ⟨location.member "specs", .list, suite.member "specs"⟩ ] ++
    specListRequirements (location.member "specs") 0 (suite.member "specs").elements ++
    [⟨location.member "suites", .list, suite.member "suites"⟩]

/-- What suites require, suite by suite. -/
def requirementsOf (suites : List (Location × Json.Value)) : List Requirement :=
  suites.flatMap fun (location, suite) => suiteRequirements location suite

/-- What a document requires, in the order in which reading comes to it. -/
def requirements (document : Json.Value) : List Requirement :=
  ⟨Location.member [] "suites", .list, document.member "suites"⟩ ::
    requirementsOf (documentSuites document)

namespace Yields

theorem specRecords
    (suiteFile : Text)
    (location : Location)
    (index : Nat)
    (specs : List Json.Value) :
    Yields (specListRequirements location index specs)
      (recordsFor (specs.map fun spec => (suiteFile, spec)))
      (specRecords suiteFile location index specs) := by
  induction specs generalizing index with
  | nil => rfl
  | cons spec others inductionHypothesis =>
      have both :=
        (specRecord? suiteFile (location.item index) spec).bind_bind_pure
          (inductionHypothesis (index + 1)) (·.toList ++ ·)
      rwa [List.map_cons, recordsFor_cons]

mutual

/-- A suite is read as its own specs, then its nested suites. -/
theorem suiteRecords (location : Location) :
    (suite : Json.Value) →
      Yields (suiteRequirements location suite ++ requirementsOf (nestedIn location suite))
        (recordsFor (specsOf suite ++ specsIn (nestedIn location suite)))
        (suiteRecords location suite)
  | .object members => by
      rw [Results.suiteRecords, recordsFor_append, suiteRequirements, List.append_assoc,
        List.append_assoc]
      refine .met rfl (asText.bind (asList.bind ?_))
      exact (specRecords _ (location.member "specs") 0 _).bind_bind_pure
        (nestedRecords location members) (· ++ ·)
  | .null | .boolean _ | .integer _ | .real _ | .string _ | .array _ => rfl

theorem nestedRecords (location : Location) :
    (members : List (Text × Json.Value)) →
      Yields
        (⟨location.member "suites", .list, (Json.Value.object members).member "suites"⟩ ::
          requirementsOf (nestedInMember location members))
        (recordsFor (specsIn (nestedInMember location members)))
        (nestedRecords location members)
  | [] => rfl
  | (name, value) :: members => by
      rw [Results.nestedRecords, nestedInMember, Json.Value.member_cons]
      split
      · exact suitesRecords (location.member "suites") value
      · exact nestedRecords location members

theorem suitesRecords (location : Location) :
    (value : Json.Value) →
      Yields (⟨location, .list, value⟩ :: requirementsOf (suitesIn location value))
        (recordsFor (specsIn (suitesIn location value)))
        (suitesRecords location value)
  | .array suites => suiteListRecords location 0 suites
  | .null | .boolean _ | .integer _ | .real _ | .string _ | .object _ => rfl

theorem suiteListRecords (location : Location) :
    (index : Nat) → (suites : List Json.Value) →
      Yields (requirementsOf (suiteListIn location index suites))
        (recordsFor (specsIn (suiteListIn location index suites)))
        (suiteListRecords location index suites)
  | _, [] => rfl
  | index, suite :: suites => by
      have both :=
        (suiteRecords (location.item index) suite).bind_bind_pure
          (suiteListRecords location (index + 1) suites) (· ++ ·)
      rw [suiteListIn, Results.suiteListRecords]
      simpa only [requirementsOf, specsIn, List.cons_append, List.flatMap_cons,
        List.flatMap_append, recordsFor_append, List.append_assoc] using both

end

end Yields

/-- The records of a document are those of its specs, if all that it requires is met. -/
theorem records_eq_verify
    (document : Json.Value) :
    records document =
      (verify (requirements document)).map fun _ => recordsFor (documentSpecs document) :=
  Yields.suitesRecords _ _

theorem eq_recordsFor_of_records
    {document : Json.Value}
    {found : List TestRecord}
    (read : records document = .ok found) :
    found = recordsFor (documentSpecs document) := by
  rw [records_eq_verify] at read
  cases outcome : verify (requirements document) with
  | error fault =>
      rw [outcome] at read
      cases read
  | ok =>
      rw [outcome] at read
      cases read
      rfl

end TestAudit.Results
