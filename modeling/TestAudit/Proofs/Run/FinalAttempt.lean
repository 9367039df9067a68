import TestAudit.Proofs.Lookup
import TestAudit.Proofs.Run.Requirement

namespace TestAudit

/-!
# The final attempt decides

What earlier attempts of a test hold reaches no record, except as a mark that the test is
flaky, and no fault: a document is read as if they were empty. So two documents that are the
same once their earlier attempts are emptied have the same outcome, that mark apart.
-/

namespace Json.Value

/-! ## Values with changed parts -/

/-- Changes the items of an array as a whole; any other value stays as it is. -/
def mapItems (change : List Value → List Value) : Value → Value
  | .array items => .array (change items)
  | other => other

/-- Changes each member of an object by its name; any other value stays as it is. -/
def mapMembers (change : Text → Value → Value) : Value → Value
  | .object members => .object (members.map fun (name, value) => (name, change name value))
  | other => other

/-- Changes the member of one name. -/
def changeMember (name : Text) (change : Value → Value) : Value → Value :=
  mapMembers fun other value => if other = name then change value else value

theorem elements_mapItems
    {change : List Value → List Value}
    (keepsNone : change [] = [])
    (value : Value) :
    (value.mapItems change).elements = change value.elements := by
  cases value with
  | array items => rfl
  | _ => exact keepsNone.symm

theorem member_mapMembers
    {change : Text → Value → Value}
    {name : Text}
    (keepsNull : change name .null = .null)
    (value : Value) :
    (value.mapMembers change).member name = change name (value.member name) := by
  cases value with
  | object members =>
      rw [mapMembers, member, member, Lookup.lookup_map_values]
      cases members.lookup name with
      | none => exact keepsNull.symm
      | some found => rfl
  | _ => exact keepsNull.symm

theorem member_changeMember
    {name : Text}
    {change : Value → Value}
    (keepsNull : change .null = .null)
    (value : Value) :
    (value.changeMember name change).member name = change (value.member name) := by
  rw [changeMember, member_mapMembers (by rw [if_pos rfl, keepsNull]), if_pos rfl]

theorem member_changeMember_of_ne
    {name other : Text}
    {change : Value → Value}
    (differs : other ≠ name)
    (value : Value) :
    (value.changeMember name change).member other = value.member other := by
  rw [changeMember, member_mapMembers (if_neg differs), if_neg differs]

end Json.Value

namespace Results

/-! ## Documents with empty earlier attempts -/

/-- An attempt with nothing in it; what is no object stays as it is. -/
def emptiedAttempt : Json.Value → Json.Value
  | .object _ => .object []
  | other => other

/-- Attempts of which all but the final one are emptied. -/
def emptiedEarlier (attempts : List Json.Value) : List Json.Value :=
  attempts.dropLast.map emptiedAttempt ++ attempts.getLast?.toList

/-- A test whose earlier attempts are emptied. -/
def emptiedTest : Json.Value → Json.Value :=
  Json.Value.changeMember "results" (Json.Value.mapItems emptiedEarlier)

/-- A spec in whose first test the earlier attempts are emptied. -/
def emptiedSpec : Json.Value → Json.Value :=
  Json.Value.changeMember "tests" (Json.Value.mapItems (List.modifyHead emptiedTest))

mutual

/-- A suite in which the earlier attempts are emptied, in nested suites too. -/
def emptiedSuite : Json.Value → Json.Value
  | .object members => .object (emptiedMembers members)
  | other => other

/-- The members of such a suite: only its specs and its nested suites have attempts. -/
def emptiedMembers : List (Text × Json.Value) → List (Text × Json.Value)
  | [] => []
  | (name, value) :: members =>
      let emptied :=
        if name = "suites".toList then
          emptiedSuites value
        else if name = "specs".toList then
          value.mapItems (List.map emptiedSpec)
        else
          value
      (name, emptied) :: emptiedMembers members

/-- A list of suites in which the earlier attempts are emptied. -/
def emptiedSuites : Json.Value → Json.Value
  | .array suites => .array (emptiedSuiteList suites)
  | other => other

/-- Suites in which the earlier attempts are emptied. -/
def emptiedSuiteList : List Json.Value → List Json.Value
  | [] => []
  | suite :: suites => emptiedSuite suite :: emptiedSuiteList suites

end

/-- A document in which the earlier attempts of the first test of each spec are emptied. -/
def emptiedDocument : Json.Value → Json.Value :=
  Json.Value.changeMember "suites" emptiedSuites

/--
Two documents differ at most in what is inside the earlier attempts of the first tests of
specs: there are as many in both, and what is no object is the same.
-/
def DifferInEarlierAttempts (first second : Json.Value) : Prop :=
  emptiedDocument first = emptiedDocument second

/-! ## What emptying keeps -/

theorem emptiedEarlier_append
    (earlier : List Json.Value)
    (final : Json.Value) :
    emptiedEarlier (earlier ++ [final]) = earlier.map emptiedAttempt ++ [final] := by
  rw [emptiedEarlier, List.dropLast_concat, List.getLast?_concat]
  rfl

theorem length_emptiedEarlier
    (attempts : List Json.Value) :
    (emptiedEarlier attempts).length = attempts.length := by
  obtain rfl | ⟨earlier, final, rfl⟩ := List.eq_nil_or_concat attempts
  · rfl
  · rw [List.concat_eq_append, emptiedEarlier_append]
    simp

theorem getLast?_emptiedEarlier
    (attempts : List Json.Value) :
    (emptiedEarlier attempts).getLast? = attempts.getLast? := by
  obtain rfl | ⟨earlier, final, rfl⟩ := List.eq_nil_or_concat attempts
  · rfl
  · rw [List.concat_eq_append, emptiedEarlier_append, List.getLast?_concat, List.getLast?_concat]

theorem elements_results_emptiedTest
    (test : Json.Value) :
    ((emptiedTest test).member "results").elements =
      emptiedEarlier (test.member "results").elements := by
  rw [emptiedTest, Json.Value.member_changeMember rfl, Json.Value.elements_mapItems rfl]

theorem elements_tests_emptiedSpec
    (spec : Json.Value) :
    ((emptiedSpec spec).member "tests").elements =
      (spec.member "tests").elements.modifyHead emptiedTest := by
  rw [emptiedSpec, Json.Value.member_changeMember rfl, Json.Value.elements_mapItems rfl]

theorem testOf_emptiedSpec
    (spec : Json.Value) :
    testOf (emptiedSpec spec) = emptiedTest (testOf spec) := by
  rw [testOf, testOf, elements_tests_emptiedSpec]
  cases (spec.member "tests").elements <;> rfl

theorem attemptsOf_emptiedSpec
    (spec : Json.Value) :
    attemptsOf (emptiedSpec spec) = emptiedEarlier (attemptsOf spec) := by
  rw [attemptsOf, testOf_emptiedSpec, elements_results_emptiedTest, attemptsOf]

/-- A member of a suite in which the earlier attempts are emptied. -/
def emptiedMember (name : Text) (value : Json.Value) : Json.Value :=
  if name = "suites".toList then
    emptiedSuites value
  else if name = "specs".toList then
    value.mapItems (List.map emptiedSpec)
  else
    value

theorem emptiedMembers_eq_map
    (members : List (Text × Json.Value)) :
    emptiedMembers members =
      members.map fun (name, value) => (name, emptiedMember name value) := by
  induction members with
  | nil => rfl
  | cons member members inductionHypothesis =>
      rw [emptiedMembers, inductionHypothesis]
      rfl

theorem member_emptiedSuite
    (suite : Json.Value)
    (name : Text) :
    (emptiedSuite suite).member name = emptiedMember name (suite.member name) := by
  have asMembers : emptiedSuite suite = suite.mapMembers emptiedMember := by
    cases suite with
    | object members =>
        rw [emptiedSuite, emptiedMembers_eq_map]
        rfl
    | _ => rfl
  have keepsNull : emptiedMember name .null = .null := by
    unfold emptiedMember
    split
    · rfl
    · split <;> rfl
  rw [asMembers, Json.Value.member_mapMembers keepsNull]

theorem specsOf_emptiedSuite
    (suite : Json.Value) :
    specsOf (emptiedSuite suite) =
      (specsOf suite).map fun (suiteFile, spec) => (suiteFile, emptiedSpec spec) := by
  have specs :
      ((emptiedSuite suite).member "specs").elements =
        (suite.member "specs").elements.map emptiedSpec := by
    rw [member_emptiedSuite]
    exact Json.Value.elements_mapItems rfl _
  have file : (emptiedSuite suite).member "file" = suite.member "file" := by
    rw [member_emptiedSuite]
    rfl
  rw [specsOf, specsOf, specs, file, List.map_map, List.map_map]
  rfl

/-- Suites stay where they are when their earlier attempts are emptied. -/
def emptiedAt (located : Location × Json.Value) : Location × Json.Value :=
  (located.1, emptiedSuite located.2)

mutual

theorem suitesIn_emptiedSuites (location : Location) :
    (value : Json.Value) →
      suitesIn location (emptiedSuites value) = (suitesIn location value).map emptiedAt
  | .array suites => suiteListIn_emptiedSuiteList location 0 suites
  | .null | .boolean _ | .integer _ | .real _ | .string _ | .object _ => rfl

theorem suiteListIn_emptiedSuiteList (location : Location) :
    (index : Nat) → (suites : List Json.Value) →
      suiteListIn location index (emptiedSuiteList suites) =
        (suiteListIn location index suites).map emptiedAt
  | _, [] => rfl
  | index, suite :: suites => by
      rw [emptiedSuiteList, suiteListIn, suiteListIn, List.map_append, List.map_cons,
        nestedIn_emptiedSuite (location.item index) suite,
        suiteListIn_emptiedSuiteList location (index + 1) suites]
      rfl

theorem nestedIn_emptiedSuite (location : Location) :
    (suite : Json.Value) →
      nestedIn location (emptiedSuite suite) = (nestedIn location suite).map emptiedAt
  | .object members => nestedInMember_emptiedMembers location members
  | .null | .boolean _ | .integer _ | .real _ | .string _ | .array _ => rfl

theorem nestedInMember_emptiedMembers (location : Location) :
    (members : List (Text × Json.Value)) →
      nestedInMember location (emptiedMembers members) =
        (nestedInMember location members).map emptiedAt
  | [] => rfl
  | (name, value) :: members => by
      rw [emptiedMembers, nestedInMember, nestedInMember]
      split
      · exact suitesIn_emptiedSuites (location.member "suites") value
      · exact nestedInMember_emptiedMembers location members

end

theorem documentSuites_emptiedDocument
    (document : Json.Value) :
    documentSuites (emptiedDocument document) = (documentSuites document).map emptiedAt := by
  rw [documentSuites, documentSuites, emptiedDocument, Json.Value.member_changeMember rfl]
  exact suitesIn_emptiedSuites _ _

theorem documentSpecs_emptiedDocument
    (document : Json.Value) :
    documentSpecs (emptiedDocument document) =
      (documentSpecs document).map fun (suiteFile, spec) => (suiteFile, emptiedSpec spec) := by
  rw [documentSpecs, documentSpecs, documentSuites_emptiedDocument, specsIn, specsIn,
    List.flatMap_map, List.map_flatMap]
  congr 1
  funext located
  exact specsOf_emptiedSuite located.2

/-! ## What reading requires -/

/-- The fault of a requirement, if it is not met. -/
def Requirement.fault? (requirement : Requirement) : Option ReadingFault :=
  if requirement.isMet then none else some requirement.fault

theorem verify_cons
    (requirement : Requirement)
    (others : List Requirement) :
    verify (requirement :: others) =
      match requirement.fault? with
      | none => verify others
      | some fault => .error fault := by
  rw [verify, Requirement.fault?]
  split <;> rfl

/-- Reading stops at the first fault, whatever else is required. -/
theorem verify_congr
    {first second : List Requirement}
    (same : first.map Requirement.fault? = second.map Requirement.fault?) :
    verify first = verify second := by
  induction first generalizing second with
  | nil =>
      rw [List.map_nil, eq_comm, List.map_eq_nil_iff] at same
      rw [same]
  | cons requirement others inductionHypothesis =>
      obtain ⟨other, rest, rfl, sameFault, sameOthers⟩ := List.map_eq_cons_iff.mp same.symm
      rw [verify_cons, verify_cons, sameFault, inductionHypothesis sameOthers.symm]

theorem fault?_emptiedAttempt
    (location : Location)
    (attempt : Json.Value) :
    Requirement.fault? ⟨location, .object, emptiedAttempt attempt⟩ =
      Requirement.fault? ⟨location, .object, attempt⟩ := by
  cases attempt <;> rfl

/-- That a value is a list does not depend on its items. -/
theorem fault?_mapItems
    (location : Location)
    (change : List Json.Value → List Json.Value)
    (value : Json.Value) :
    Requirement.fault? ⟨location, .list, value.mapItems change⟩ =
      Requirement.fault? ⟨location, .list, value⟩ := by
  cases value <;> rfl

/-- That a value is an object does not depend on its members. -/
theorem fault?_changeMember
    (location : Location)
    (name : Text)
    (change : Json.Value → Json.Value)
    (value : Json.Value) :
    Requirement.fault? ⟨location, .object, value.changeMember name change⟩ =
      Requirement.fault? ⟨location, .object, value⟩ := by
  cases value <;> rfl

theorem faults_emptiedEarlier
    (location : Location)
    (attempts : List Json.Value) :
    (objectRequirements location 0 (emptiedEarlier attempts)).map Requirement.fault? =
      (objectRequirements location 0 attempts).map Requirement.fault? := by
  obtain rfl | ⟨earlier, final, rfl⟩ := List.eq_nil_or_concat attempts
  · rfl
  · rw [List.concat_eq_append, emptiedEarlier_append]
    simp only [objectRequirements, List.zipIdx_append, List.map_append, List.zipIdx_map,
      List.map_map, List.length_map]
    congr 1
    exact List.map_congr_left fun located _ => fault?_emptiedAttempt _ located.1

theorem faults_emptiedTest
    (location : Location)
    (spec test : Json.Value) :
    (testRequirements location (emptiedSpec spec) (emptiedTest test)).map Requirement.fault? =
      (testRequirements location spec test).map Requirement.fault? := by
  have results :
      (emptiedTest test).member "results" =
        (test.member "results").mapItems emptiedEarlier :=
    Json.Value.member_changeMember rfl test
  have record (finalLocation : Location) (final : Json.Value) :
      recordRequirements location finalLocation (emptiedSpec spec) (emptiedTest test) final =
        recordRequirements location finalLocation spec test final := by
    simp only [recordRequirements]
    rw [emptiedSpec, emptiedTest, Json.Value.member_changeMember_of_ne (by decide),
      Json.Value.member_changeMember_of_ne (by decide),
      Json.Value.member_changeMember_of_ne (by decide)]
  have isTest :
      Requirement.fault? ⟨firstTest location, .object, emptiedTest test⟩ =
        Requirement.fault? ⟨firstTest location, .object, test⟩ :=
    fault?_changeMember _ _ _ test
  simp only [testRequirements, elements_results_emptiedTest, getLast?_emptiedEarlier,
    length_emptiedEarlier, record, List.map_append, faults_emptiedEarlier, List.map_cons,
    List.map_nil, isTest]
  rw [results, fault?_mapItems]

theorem faults_emptiedSpec
    (location : Location)
    (spec : Json.Value) :
    (specRequirements location (emptiedSpec spec)).map Requirement.fault? =
      (specRequirements location spec).map Requirement.fault? := by
  have tests :
      (emptiedSpec spec).member "tests" =
        (spec.member "tests").mapItems (List.modifyHead emptiedTest) :=
    Json.Value.member_changeMember rfl spec
  have isSpec :
      Requirement.fault? ⟨location, .object, emptiedSpec spec⟩ =
        Requirement.fault? ⟨location, .object, spec⟩ :=
    fault?_changeMember _ _ _ spec
  rw [specRequirements, specRequirements, elements_tests_emptiedSpec, List.map_append,
    List.map_append, tests]
  simp only [List.map_cons, List.map_nil, isSpec, fault?_mapItems]
  congr 1
  cases (spec.member "tests").elements with
  | nil => rfl
  | cons test others => exact faults_emptiedTest location spec test

theorem faults_emptiedSuite
    (location : Location)
    (suite : Json.Value) :
    (suiteRequirements location (emptiedSuite suite)).map Requirement.fault? =
      (suiteRequirements location suite).map Requirement.fault? := by
  have isSuite :
      Requirement.fault? ⟨location, .object, emptiedSuite suite⟩ =
        Requirement.fault? ⟨location, .object, suite⟩ := by
    cases suite <;> rfl
  have file : (emptiedSuite suite).member "file" = suite.member "file" :=
    member_emptiedSuite suite "file"
  have specs :
      (emptiedSuite suite).member "specs" =
        (suite.member "specs").mapItems (List.map emptiedSpec) :=
    member_emptiedSuite suite "specs"
  have nested : (emptiedSuite suite).member "suites" = emptiedSuites (suite.member "suites") :=
    member_emptiedSuite suite "suites"
  have areNested :
      Requirement.fault? ⟨location.member "suites", .list, emptiedSuites (suite.member "suites")⟩ =
        Requirement.fault? ⟨location.member "suites", .list, suite.member "suites"⟩ := by
    cases suite.member "suites" <;> rfl
  have specList :
      (specListRequirements (location.member "specs") 0
          ((suite.member "specs").elements.map emptiedSpec)).map Requirement.fault? =
        (specListRequirements (location.member "specs") 0
          (suite.member "specs").elements).map Requirement.fault? := by
    rw [specListRequirements, specListRequirements, List.zipIdx_map, List.flatMap_map,
      List.map_flatMap, List.map_flatMap]
    congr 1
    funext located
    exact faults_emptiedSpec _ located.1
  simp only [suiteRequirements, file, specs, nested, Json.Value.elements_mapItems List.map_nil,
    List.map_append, List.map_cons, List.map_nil, isSuite, fault?_mapItems, areNested, specList]

/-- A document has the same faults when its earlier attempts are emptied. -/
theorem faults_emptiedDocument
    (document : Json.Value) :
    (requirements (emptiedDocument document)).map Requirement.fault? =
      (requirements document).map Requirement.fault? := by
  have suites :
      (emptiedDocument document).member "suites" = emptiedSuites (document.member "suites") :=
    Json.Value.member_changeMember rfl document
  have areSuites :
      Requirement.fault?
          ⟨Location.member [] "suites", .list, emptiedSuites (document.member "suites")⟩ =
        Requirement.fault? ⟨Location.member [] "suites", .list, document.member "suites"⟩ := by
    cases document.member "suites" <;> rfl
  rw [requirements, requirements, List.map_cons, List.map_cons, suites, areSuites,
    documentSuites_emptiedDocument, requirementsOf, requirementsOf, List.flatMap_map,
    List.map_flatMap, List.map_flatMap]
  congr 2
  funext located
  exact faults_emptiedSuite located.1 located.2

/-! ## Records -/

/-- Two records are the same but for the mark that a test is flaky. -/
def SameButFlaky (first second : TestRecord) : Prop :=
  { first with flaky := second.flaky } = second

/-- A record without the mark that its test is flaky. -/
def withoutFlaky (record : TestRecord) : TestRecord :=
  { record with flaky := false }

theorem sameButFlaky_of_withoutFlaky
    {first second : TestRecord}
    (same : withoutFlaky first = withoutFlaky second) :
    SameButFlaky first second := by
  obtain ⟨⟩ := first
  obtain ⟨⟩ := second
  cases same
  rfl

theorem forall₂_sameButFlaky
    {first second : List TestRecord}
    (same : first.map withoutFlaky = second.map withoutFlaky) :
    List.Forall₂ SameButFlaky first second := by
  have equal : List.Forall₂ Eq (first.map withoutFlaky) (second.map withoutFlaky) := by
    rw [same]
    exact List.forall₂_refl _
  rw [List.forall₂_map_left_iff, List.forall₂_map_right_iff] at equal
  exact equal.imp fun _ _ => sameButFlaky_of_withoutFlaky

theorem recordFor?_emptiedSpec
    (suiteFile : Text)
    (spec : Json.Value) :
    (recordFor? suiteFile (emptiedSpec spec)).map withoutFlaky =
      (recordFor? suiteFile spec).map withoutFlaky := by
  have unchanged (name : Text) (differs : name ≠ "tests".toList) :
      (emptiedSpec spec).member name = spec.member name :=
    Json.Value.member_changeMember_of_ne differs spec
  have project : (testOf (emptiedSpec spec)).member "projectName" =
      (testOf spec).member "projectName" := by
    rw [testOf_emptiedSpec]
    exact Json.Value.member_changeMember_of_ne (by decide) _
  simp only [recordFor?, attemptsOf_emptiedSpec, getLast?_emptiedEarlier, length_emptiedEarlier,
    unchanged "title" (by decide), unchanged "file" (by decide), unchanged "line" (by decide),
    project, Option.map_map]
  rfl

theorem recordsFor_emptiedDocument
    (document : Json.Value) :
    (recordsFor (documentSpecs (emptiedDocument document))).map withoutFlaky =
      (recordsFor (documentSpecs document)).map withoutFlaky := by
  rw [documentSpecs_emptiedDocument, recordsFor, recordsFor, List.filterMap_map,
    List.map_filterMap, List.map_filterMap]
  congr 1
  funext spec
  exact recordFor?_emptiedSpec spec.1 spec.2

/-- Each record says how many attempts the first test of its spec had. -/
def CountsAttempts (document : Json.Value) (found : List TestRecord) : Prop :=
  List.Forall₂ (fun (_, spec) record => record.attempts = (attemptsOf spec).length)
    ((documentSpecs document).filter fun (_, spec) => isAttempted spec) found

theorem countsAttempts_recordsFor
    (document : Json.Value) :
    CountsAttempts document (recordsFor (documentSpecs document)) := by
  refine (forall₂_recordsFor (documentSpecs document)).imp fun spec record isRecord => ?_
  obtain ⟨final, _, rfl⟩ := Option.map_eq_some_iff.mp isRecord
  rfl

/--
Two documents that differ at most in what is inside the earlier attempts of the first tests
of specs are refused with the same fault, or both are read, with records that are the same
but for the mark of flaky tests. In both, a record has the number of attempts of its spec.
-/
theorem records_of_differInEarlierAttempts
    (first second : Json.Value)
    (differ : DifferInEarlierAttempts first second) :
    (∃ fault, records first = .error fault ∧ records second = .error fault) ∨
      ∃ found others,
        records first = .ok found ∧
          records second = .ok others ∧
          List.Forall₂ SameButFlaky found others ∧
          CountsAttempts first found ∧
          CountsAttempts second others := by
  have sameFaults : verify (requirements first) = verify (requirements second) := by
    refine verify_congr ?_
    rw [← faults_emptiedDocument first, differ, faults_emptiedDocument second]
  have sameRecords :
      (recordsFor (documentSpecs first)).map withoutFlaky =
        (recordsFor (documentSpecs second)).map withoutFlaky := by
    rw [← recordsFor_emptiedDocument first, differ, recordsFor_emptiedDocument second]
  rw [records_eq_verify, records_eq_verify, sameFaults]
  cases verify (requirements second) with
  | error fault => exact Or.inl ⟨fault, rfl, rfl⟩
  | ok =>
      exact Or.inr ⟨_, _, rfl, rfl, forall₂_sameButFlaky sameRecords,
        countsAttempts_recordsFor first, countsAttempts_recordsFor second⟩

/--
Of three attempts in a nested suite only the last one is the same. Elsewhere the earlier ones
hold values that are refused in a final attempt.
-/
theorem records_of_differInEarlierAttempts_of_malformed :
    let final : Json.Value := .object [("status", .string "passed"), ("duration", .integer 5)]
    let spec (earlier : List Json.Value) : Json.Value := .object [
      ("title", .string "AC-1: Loads"),
      ("tests", .array [.object [("results", .array (earlier ++ [final]))], .null])]
    let nested (earlier : List Json.Value) : Json.Value :=
      .object [("specs", .array [.object [], spec earlier])]
    let document (earlier : List Json.Value) : Json.Value :=
      .object [("suites", .array [.object [("suites", .array [nested earlier])]])]
    let first := document [.object [("status", .string "timedOut")], .object []]
    let second := document [
      .object [("status", .string "passed"), ("duration", .real (.infinite false))],
      .object [("status", .string "passed"), ("stdout", .boolean true), ("errors", .integer 1)]]
    let record : TestRecord := {
      title := "AC-1: Loads"
      criterion := some "AC-1".toList
      status := .passed
      duration := 5
      attempts := 3
    }
    DifferInEarlierAttempts first second ∧
      records first = .ok [{ record with flaky := true }] ∧
      records second = .ok [record] ∧
      List.Forall₂ SameButFlaky [{ record with flaky := true }] [record] ∧
      CountsAttempts first [{ record with flaky := true }] := by
  intro final spec nested document first second record
  have emptied : emptiedDocument first = document [.object [], .object []] := rfl
  have otherEmptied : emptiedDocument second = document [.object [], .object []] := rfl
  have differ : DifferInEarlierAttempts first second := emptied.trans otherEmptied.symm
  have read : records first = .ok [{ record with flaky := true }] := rfl
  have readOther : records second = .ok [record] := rfl
  rcases records_of_differInEarlierAttempts first second differ with
    ⟨_, refused, _⟩ | ⟨_, _, isRead, isReadOther, same, counts, _⟩
  · cases read.symm.trans refused
  · cases read.symm.trans isRead
    cases readOther.symm.trans isReadOther
    exact ⟨differ, read, readOther, same, counts⟩

end Results

end TestAudit
