import TestAudit.Proofs.Outcome
import TestAudit.Run.Results

namespace TestAudit.Json.Value

/-! ## Shapes of values -/

/-- A value is an object. -/
def IsObject (value : Value) : Prop :=
  ∃ members, value = .object members

/-- A value counts as a text: it is a string, or null. -/
def IsText (value : Value) : Prop :=
  value = .null ∨ ∃ text, value = .string text

end TestAudit.Json.Value

namespace TestAudit.Results

/-!
# Reading one spec

A spec is read by checks of shapes, each of which fails with the fault of a value of the
wrong shape. Only the duration of the final attempt can fail in another way.
-/

variable {location : Location} {value : Json.Value}

/-! ## Checks of shapes -/

theorem asObject_eq_ok_iff
    {object : Json.Value} :
    asObject location value = .ok object ↔ value.IsObject ∧ object = value := by
  cases value <;> simp [asObject, Json.Value.IsObject, eq_comm]

theorem asList_eq_ok_iff
    {items : List Json.Value} :
    asList location value = .ok items ↔ value = .null ∧ items = [] ∨ value = .array items := by
  cases value <;> simp [asList, eq_comm]

theorem exists_asText_iff :
    (∃ text, asText location value = .ok text) ↔ value.IsText := by
  cases value <;> simp [asText, Json.Value.IsText]

/-- Objects are given with their locations, in order. -/
theorem asObjects_eq_ok
    {index : Nat}
    {values : List Json.Value}
    {attempts : List (Location × Json.Value)}
    (checked : asObjects location index values = .ok attempts) :
    (∀ value ∈ values, value.IsObject) ∧ attempts.map Prod.snd = values := by
  induction values generalizing index attempts with
  | nil =>
      cases checked
      exact ⟨List.forall_mem_nil _, rfl⟩
  | cons value others inductionHypothesis =>
      obtain ⟨object, isObject, rest⟩ := Outcome.bind_eq_ok_iff.mp checked
      obtain ⟨located, areObjects, same⟩ := Outcome.bind_eq_ok_iff.mp rest
      cases same
      obtain ⟨object, rfl⟩ := asObject_eq_ok_iff.mp isObject
      obtain ⟨objects, rfl⟩ := inductionHypothesis areObjects
      exact ⟨List.forall_mem_cons.mpr ⟨object, objects⟩, rfl⟩

theorem exists_asObjects
    (index : Nat)
    {values : List Json.Value}
    (objects : ∀ value ∈ values, value.IsObject) :
    ∃ attempts, asObjects location index values = .ok attempts := by
  induction values generalizing index with
  | nil => exact ⟨[], rfl⟩
  | cons value others inductionHypothesis =>
      rw [List.forall_mem_cons] at objects
      obtain ⟨located, areObjects⟩ := inductionHypothesis (index + 1) objects.2
      have isObject : asObject (location.item index) value = .ok value :=
        asObject_eq_ok_iff.mpr ⟨objects.1, rfl⟩
      refine ⟨(location.item index, value) :: located, ?_⟩
      rw [asObjects, isObject, areObjects]
      rfl

/-! ## Faults that name a value -/

/-- A check fails with nothing but the fault of a value of the wrong shape. -/
def ChecksShape {α : Type} (checked : Except ReadingFault α) : Prop :=
  checked ≠ .error .infiniteDuration

theorem checksShape_asObject : ChecksShape (asObject location value) := by
  cases value <;> simp [ChecksShape, asObject]

theorem checksShape_asList : ChecksShape (asList location value) := by
  cases value <;> simp [ChecksShape, asList]

theorem checksShape_asText : ChecksShape (asText location value) := by
  cases value <;> simp [ChecksShape, asText]

theorem ChecksShape.bind
    {α β : Type}
    {checked : Except ReadingFault α}
    {next : α → Except ReadingFault β}
    (first : ChecksShape checked)
    (rest : ∀ value, ChecksShape (next value)) :
    ChecksShape (checked >>= next) := by
  intro fails
  rcases Outcome.bind_eq_error_iff.mp fails with firstFails | ⟨value, _, restFails⟩
  · exact first firstFails
  · exact rest value restFails

/-- A check fails with a value of the wrong shape, or what follows goes on with its value. -/
theorem ChecksShape.bind_cases
    {α β : Type}
    {checked : Except ReadingFault α}
    (checks : ChecksShape checked)
    (next : α → Except ReadingFault β) :
    (∃ fault, checked >>= next = .error fault ∧ fault ≠ .infiniteDuration) ∨
      ∃ value, checked = .ok value ∧ checked >>= next = next value := by
  cases checked with
  | error fault => exact Or.inl ⟨fault, rfl, fun infinite => checks (congrArg _ infinite)⟩
  | ok value => exact Or.inr ⟨value, rfl, rfl⟩

theorem checksShape_pure {α : Type} (value : α) : ChecksShape (pure value) :=
  nofun

theorem checksShape_asObjects
    (index : Nat)
    (values : List Json.Value) :
    ChecksShape (asObjects location index values) := by
  induction values generalizing index with
  | nil => exact checksShape_pure []
  | cons value others inductionHypothesis =>
      exact checksShape_asObject.bind fun _ =>
        (inductionHypothesis (index + 1)).bind fun _ => checksShape_pure _

theorem checksShape_outputOf : ChecksShape (outputOf location value) :=
  checksShape_asList.bind fun _ => checksShape_pure _

theorem checksShape_errorsOf : ChecksShape (errorsOf location value) :=
  checksShape_asList.bind fun _ => checksShape_pure _

/-! ## Durations -/

theorem toInteger_eq_infinite_iff :
    value.toInteger = .error .infinite ↔ ∃ negative, value = .real (.infinite negative) := by
  cases value with
  | real number =>
      cases number <;> simp [Json.Value.toInteger, Binary64.truncate?]
  | string text => simp [Json.Value.toInteger, Outcome.mapError_eq_error_iff]
  | _ => simp [Json.Value.toInteger]

/-- Only an infinite number is a duration that fails without naming its value. -/
theorem asDuration_eq_infinite_iff :
    asDuration location value = .error .infiniteDuration ↔
      ∃ negative, value = .real (.infinite negative) := by
  unfold asDuration
  split
  · simp
  · simp
  · simp
  · rw [← toInteger_eq_infinite_iff]
    cases value.toInteger with
    | ok number => simp
    | error fault => cases fault <;> simp

/-! ## Records -/

theorem criterion_of_recordOf
    {suiteFile : Text}
    {testLocation : Location}
    {spec test : Json.Value}
    {earlier : List (Location × Json.Value)}
    {final : Location × Json.Value}
    {record : TestRecord}
    (isRecord :
      recordOf suiteFile location testLocation spec test earlier final = .ok record) :
    record.criterion = Title.criterion? record.title := by
  obtain ⟨_, _, isRecord⟩ := Outcome.bind_eq_ok_iff.mp isRecord
  obtain ⟨_, _, isRecord⟩ := Outcome.bind_eq_ok_iff.mp isRecord
  obtain ⟨_, _, isRecord⟩ := Outcome.bind_eq_ok_iff.mp isRecord
  obtain ⟨_, _, isRecord⟩ := Outcome.bind_eq_ok_iff.mp isRecord
  obtain ⟨_, _, isRecord⟩ := Outcome.bind_eq_ok_iff.mp isRecord
  obtain ⟨_, _, same⟩ := Outcome.bind_eq_ok_iff.mp isRecord
  cases same
  rfl

/-- The record of a spec fails without naming a value just when its duration is infinite. -/
theorem recordOf_eq_infinite_iff
    {suiteFile : Text}
    {testLocation : Location}
    {spec test : Json.Value}
    {earlier : List (Location × Json.Value)}
    {final : Location × Json.Value} :
    recordOf suiteFile location testLocation spec test earlier final =
        .error .infiniteDuration ↔
      (spec.member "title").IsText ∧ (spec.member "file").IsText ∧
        ∃ negative, final.2.member "duration" = .real (.infinite negative) := by
  rw [← @exists_asText_iff (location.member "title"), ← @exists_asText_iff (location.member "file"),
    ← @asDuration_eq_infinite_iff (final.1.member "duration")]
  constructor
  · intro fails
    rcases Outcome.bind_eq_error_iff.mp fails with shape | ⟨title, isTitle, fails⟩
    · exact (checksShape_asText shape).elim
    rcases Outcome.bind_eq_error_iff.mp fails with shape | ⟨file, isFile, fails⟩
    · exact (checksShape_asText shape).elim
    refine ⟨⟨title, isTitle⟩, ⟨file, isFile⟩, ?_⟩
    rcases Outcome.bind_eq_error_iff.mp fails with infinite | ⟨duration, _, fails⟩
    · exact infinite
    · exact (checksShape_outputOf.bind (fun _ => checksShape_errorsOf.bind fun _ =>
        checksShape_asText.bind fun _ => checksShape_pure _) fails).elim
  · rintro ⟨⟨title, isTitle⟩, ⟨file, isFile⟩, infinite⟩
    refine Outcome.bind_eq_error_iff.mpr (Or.inr ⟨title, isTitle, ?_⟩)
    refine Outcome.bind_eq_error_iff.mpr (Or.inr ⟨file, isFile, ?_⟩)
    exact Outcome.bind_eq_error_iff.mpr (Or.inl infinite)

/-! ## Specs -/

/-- The location of the first test of a spec. -/
def firstTest (location : Location) : Location :=
  (location.member "tests").item 0

/-- A spec whose first test has attempts, the final one behind the earlier ones. -/
structure Attempted
    (location : Location)
    (spec test : Json.Value)
    (earlier : List (Location × Json.Value))
    (final : Location × Json.Value) :
    Prop where
  isObject : spec.IsObject
  tests : ∃ others, spec.member "tests" = .array (test :: others)
  isTest : test.IsObject
  attempts :
    ∃ results, test.member "results" = .array results ∧
      asObjects ((firstTest location).member "results") 0 results = .ok (earlier ++ [final])

theorem Attempted.specRecord?_eq
    {spec test : Json.Value}
    {earlier : List (Location × Json.Value)}
    {final : Location × Json.Value}
    (attempted : Attempted location spec test earlier final)
    (suiteFile : Text) :
    specRecord? suiteFile location spec =
      (recordOf suiteFile location (firstTest location) spec test earlier final).map some := by
  obtain ⟨⟨_, rfl⟩, ⟨others, areTests⟩, ⟨_, rfl⟩, results, areResults, areAttempts⟩ := attempted
  rw [firstTest] at areAttempts
  simp only [specRecord?, asObject, areTests, areResults, asList, areAttempts, bind, Except.bind,
    List.getLast?_concat, List.dropLast_concat]
  rfl

/-- A spec has a value of the wrong shape, or no attempts, or its record is read from them. -/
theorem specRecord?_cases
    (suiteFile : Text)
    (location : Location)
    (spec : Json.Value) :
    (∃ fault, specRecord? suiteFile location spec = .error fault ∧ fault ≠ .infiniteDuration) ∨
      specRecord? suiteFile location spec = .ok none ∨
      ∃ test earlier final, Attempted location spec test earlier final := by
  -- Every check before the record either ends the reading or hands on a value of its shape.
  rw [specRecord?]
  rcases checksShape_asObject.bind_cases _ with fails | ⟨_, checked, behind⟩
  · exact Or.inl fails
  obtain ⟨isObject, same⟩ := asObject_eq_ok_iff.mp checked
  subst same
  rw [behind]
  rcases checksShape_asList.bind_cases _ with fails | ⟨tests, areTests, behind⟩
  · exact Or.inl fails
  rw [behind]
  cases tests with
  | nil => exact Or.inr (Or.inl rfl)
  | cons test others =>
      obtain ⟨_, impossible⟩ | areTests := asList_eq_ok_iff.mp areTests
      · cases impossible
      rcases checksShape_asObject.bind_cases _ with fails | ⟨_, checked, behind⟩
      · exact Or.inl fails
      obtain ⟨isTest, same⟩ := asObject_eq_ok_iff.mp checked
      subst same
      dsimp only
      rw [behind]
      rcases checksShape_asList.bind_cases _ with fails | ⟨results, areResults, behind⟩
      · exact Or.inl fails
      dsimp only
      rw [behind]
      rcases (checksShape_asObjects _ _).bind_cases _ with fails | ⟨attempts, areAttempts, behind⟩
      · exact Or.inl fails
      rw [behind]
      obtain rfl | ⟨earlier, final, shape⟩ := List.eq_nil_or_concat attempts
      · exact Or.inr (Or.inl rfl)
      rw [List.concat_eq_append] at shape
      subst shape
      obtain ⟨_, rfl⟩ | areResults := asList_eq_ok_iff.mp areResults
      · have located := (asObjects_eq_ok areAttempts).2
        simp at located
      · exact Or.inr (Or.inr ⟨_, earlier, final, isObject, ⟨others, areTests⟩, isTest, results,
          areResults, areAttempts⟩)

theorem criterion_of_specRecord?
    {suiteFile : Text}
    {spec : Json.Value}
    {record : TestRecord}
    (isRecord : specRecord? suiteFile location spec = .ok (some record)) :
    record.criterion = Title.criterion? record.title := by
  rcases specRecord?_cases suiteFile location spec with
    ⟨_, fails, _⟩ | nothing | ⟨test, earlier, final, attempted⟩
  · cases fails.symm.trans isRecord
  · cases nothing.symm.trans isRecord
  · rw [attempted.specRecord?_eq] at isRecord
    cases read : recordOf suiteFile location (firstTest location) spec test earlier final with
    | ok found =>
        rw [read] at isRecord
        cases isRecord
        exact criterion_of_recordOf read
    | error fault =>
        rw [read] at isRecord
        cases isRecord

/--
A spec that is read up to the duration of its final attempt, which is infinite: what is
read before has the right shape.
-/
structure EndsInfinite (spec : Json.Value) : Prop where
  isObject : spec.IsObject
  title : (spec.member "title").IsText
  file : (spec.member "file").IsText
  attempts :
    ∃ test others earlier final,
      spec.member "tests" = .array (test :: others) ∧
        test.IsObject ∧
        test.member "results" = .array (earlier ++ [final]) ∧
        (∀ attempt ∈ earlier ++ [final], attempt.IsObject) ∧
        ∃ negative, final.member "duration" = .real (.infinite negative)

theorem specRecord?_eq_infinite_iff
    {suiteFile : Text}
    {spec : Json.Value} :
    specRecord? suiteFile location spec = .error .infiniteDuration ↔ EndsInfinite spec := by
  constructor
  · intro fails
    rcases specRecord?_cases suiteFile location spec with
      ⟨_, otherFault, differs⟩ | nothing | ⟨test, earlier, final, attempted⟩
    · cases otherFault.symm.trans fails
      exact (differs rfl).elim
    · cases nothing.symm.trans fails
    · rw [attempted.specRecord?_eq, Outcome.map_eq_error_iff, recordOf_eq_infinite_iff] at fails
      obtain ⟨title, file, infinite⟩ := fails
      obtain ⟨isObject, ⟨others, areTests⟩, isTest, results, areResults, areAttempts⟩ := attempted
      obtain ⟨objects, rfl⟩ := asObjects_eq_ok areAttempts
      rw [List.map_append, List.map_singleton] at areResults objects
      exact {
        isObject, title, file
        attempts := ⟨test, others, _, _, areTests, isTest, areResults, objects, infinite⟩
      }
  · rintro ⟨isObject, title, file, test, others, earlier, final, areTests, isTest, areResults,
      objects, infinite⟩
    obtain ⟨attempts, areAttempts⟩ :=
      @exists_asObjects ((firstTest location).member "results") 0 _ objects
    obtain ⟨_, located⟩ := asObjects_eq_ok areAttempts
    obtain ⟨first, last, rfl, rfl, isLast⟩ := List.map_eq_append_iff.mp located
    obtain ⟨_, rfl, rfl⟩ := List.map_eq_singleton_iff.mp isLast
    have attempted : Attempted location spec test first _ := {
      isObject, isTest
      tests := ⟨others, areTests⟩
      attempts := ⟨_, areResults, areAttempts⟩
    }
    rw [attempted.specRecord?_eq, Outcome.map_eq_error_iff, recordOf_eq_infinite_iff]
    exact ⟨title, file, infinite⟩

end TestAudit.Results
