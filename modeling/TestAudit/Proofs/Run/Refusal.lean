import TestAudit.Proofs.Run.Location
import TestAudit.Proofs.Run.Requirement
import TestAudit.Run.Document

namespace TestAudit.Results

/-!
# Why and where a document is refused

A document is refused with the fault of a value of the wrong shape just when something
that it requires is not met. The location in the message, read as a path, leads to the
value that is at fault: a value of the wrong shape is there, since an absent one counts as
null, which passes wherever a member can be absent.
-/

variable {document value : Json.Value} {location : Location}

/-! ## Unmet requirements stand in the document -/

namespace Leads

/-- An item of an array that is a member of a value. -/
theorem element
    {name : Text}
    {index : Nat}
    {item : Json.Value}
    (leads : Leads document location value)
    (plain : name.all Location.isNameChar = true)
    (here : (value.member name).elements[index]? = some item) :
    Leads document ((location.member name).item index) item := by
  cases array : value.member name with
  | array items =>
      rw [array] at here
      have present : value.member name ≠ .null := by
        rw [array]
        exact nofun
      have toArray := leads.member plain present
      rw [array] at toArray
      exact toArray.item here
  | _ =>
      rw [array] at here
      simp [Json.Value.elements] at here

/-- A member that must be a list, a text or a duration, and is not, is not absent. -/
theorem unmetMember
    {name : Text}
    {shape : Shape}
    (leads : Leads document location value)
    (plain : name.all Location.isNameChar = true)
    (optional : shape.accepts .null = true)
    (notMet : shape.accepts (value.member name) = false) :
    Leads document (location.member name) (value.member name) := by
  refine leads.member plain fun absent => ?_
  rw [absent, optional] at notMet
  cases notMet

end Leads

mutual

theorem leads_suitesIn :
    {location : Location} → (value : Json.Value) → Leads document location value →
      ∀ found ∈ suitesIn location value, Leads document found.1 found.2
  | _, .array suites, leads =>
      leads_suiteListIn 0 suites fun index suite here => by
        rw [Nat.zero_add]
        exact leads.item here
  | _, .null, _ | _, .boolean _, _ | _, .integer _, _ | _, .real _, _ | _, .string _, _
  | _, .object _, _ => List.forall_mem_nil _

theorem leads_suiteListIn :
    {location : Location} → (first : Nat) → (suites : List Json.Value) →
      (∀ index suite, suites[index]? = some suite →
        Leads document (location.item (first + index)) suite) →
      ∀ found ∈ suiteListIn location first suites, Leads document found.1 found.2
  | _, _, [], _ => List.forall_mem_nil _
  | _, first, suite :: suites, leads => by
      have here := leads 0 suite rfl
      refine List.forall_mem_append.mpr ⟨List.forall_mem_cons.mpr ⟨here, ?_⟩, ?_⟩
      · exact leads_nestedIn suite here
      · refine leads_suiteListIn (first + 1) suites fun index suite isSuite => ?_
        rw [Nat.add_assoc, Nat.add_comm 1]
        exact leads (index + 1) suite isSuite

theorem leads_nestedIn :
    {location : Location} → (suite : Json.Value) → Leads document location suite →
      ∀ found ∈ nestedIn location suite, Leads document found.1 found.2
  | _, .object members, leads =>
      leads_nestedInMember members fun _ here => leads.lookup (by decide) here
  | _, .null, _ | _, .boolean _, _ | _, .integer _, _ | _, .real _, _ | _, .string _, _
  | _, .array _, _ => List.forall_mem_nil _

theorem leads_nestedInMember :
    {location : Location} → (members : List (Text × Json.Value)) →
      (∀ value, members.lookup "suites".toList = some value →
        Leads document (location.member "suites") value) →
      ∀ found ∈ nestedInMember location members, Leads document found.1 found.2
  | _, [], _ => List.forall_mem_nil _
  | _, (name, value) :: members, leads => by
      rw [nestedInMember]
      split
      next isSuites =>
        exact leads_suitesIn value (leads value (by simp [isSuites]))
      next other =>
        refine leads_nestedInMember members fun found here => leads found ?_
        rw [List.lookup_cons, beq_eq_false_iff_ne.mpr (Ne.symm other)]
        exact here

end

theorem leads_of_recordRequirements
    {finalLocation : Location}
    {spec test final : Json.Value}
    (toSpec : Leads document location spec)
    (toTest : Leads document (firstTest location) test)
    (toFinal : Leads document finalLocation final) :
    ∀ requirement ∈ recordRequirements location finalLocation spec test final,
      requirement.isMet = false → Leads document requirement.location requirement.value := by
  simp only [recordRequirements, List.forall_mem_cons, List.not_mem_nil, false_implies,
    implies_true, and_true]
  exact ⟨toSpec.unmetMember (by decide) rfl, toSpec.unmetMember (by decide) rfl,
    toFinal.unmetMember (by decide) rfl, toFinal.unmetMember (by decide) rfl,
    toFinal.unmetMember (by decide) rfl, toTest.unmetMember (by decide) rfl⟩

theorem leads_of_testRequirements
    {spec test : Json.Value}
    (toSpec : Leads document location spec)
    (toTest : Leads document (firstTest location) test) :
    ∀ requirement ∈ testRequirements location spec test,
      requirement.isMet = false → Leads document requirement.location requirement.value := by
  unfold testRequirements
  refine List.forall_mem_append.mpr ⟨List.forall_mem_append.mpr ⟨?_, ?_⟩, ?_⟩
  · simp only [List.forall_mem_cons, List.not_mem_nil, false_implies, implies_true, and_true]
    exact ⟨fun _ => toTest, toTest.unmetMember (by decide) rfl⟩
  · rintro requirement isAttempt _
    obtain ⟨⟨attempt, index⟩, member, rfl⟩ := List.mem_map.mp isAttempt
    exact toTest.element (by decide) (List.mk_mem_zipIdx_iff_getElem?.mp member)
  · cases last : (test.member "results").elements.getLast? with
    | none => exact List.forall_mem_nil _
    | some final =>
        rw [List.getLast?_eq_getElem?] at last
        exact leads_of_recordRequirements toSpec toTest (toTest.element (by decide) last)

theorem leads_of_specRequirements
    {spec : Json.Value}
    (toSpec : Leads document location spec) :
    ∀ requirement ∈ specRequirements location spec,
      requirement.isMet = false → Leads document requirement.location requirement.value := by
  unfold specRequirements
  refine List.forall_mem_append.mpr ⟨?_, ?_⟩
  · simp only [List.forall_mem_cons, List.not_mem_nil, false_implies, implies_true, and_true]
    exact ⟨fun _ => toSpec, toSpec.unmetMember (by decide) rfl⟩
  · cases tests : (spec.member "tests").elements with
    | nil => exact List.forall_mem_nil _
    | cons test others =>
        refine leads_of_testRequirements toSpec (toSpec.element (by decide) ?_)
        rw [tests]
        rfl

theorem leads_of_suiteRequirements
    {suite : Json.Value}
    (toSuite : Leads document location suite) :
    ∀ requirement ∈ suiteRequirements location suite,
      requirement.isMet = false → Leads document requirement.location requirement.value := by
  unfold suiteRequirements
  refine List.forall_mem_append.mpr ⟨List.forall_mem_append.mpr ⟨?_, ?_⟩, ?_⟩
  · simp only [List.forall_mem_cons, List.not_mem_nil, false_implies, implies_true, and_true]
    exact ⟨fun _ => toSuite, toSuite.unmetMember (by decide) rfl,
      toSuite.unmetMember (by decide) rfl⟩
  · rintro requirement ofSpec
    obtain ⟨⟨spec, index⟩, member, inSpec⟩ := List.mem_flatMap.mp ofSpec
    exact leads_of_specRequirements
      (toSuite.element (by decide) (List.mk_mem_zipIdx_iff_getElem?.mp member)) requirement inSpec
  · exact List.forall_mem_singleton.mpr (toSuite.unmetMember (by decide) rfl)

/-- The value of a requirement that is not met stands at its location. -/
theorem leads_of_not_isMet
    {requirement : Requirement}
    (member : requirement ∈ requirements document)
    (notMet : requirement.isMet = false) :
    Leads document requirement.location requirement.value := by
  rcases List.mem_cons.mp member with rfl | inSuites
  · refine leads_member (by decide) fun absent => ?_
    rw [Requirement.isMet, absent] at notMet
    cases notMet
  · obtain ⟨⟨location, suite⟩, isSuite, ofSuite⟩ := List.mem_flatMap.mp inSuites
    -- Some suite is there, so the member that leads to the suites is not absent.
    have present : document.member "suites" ≠ .null := by
      intro absent
      rw [documentSuites, absent] at isSuite
      cases isSuite
    have toSuite :=
      leads_suitesIn _ (leads_member (by decide) present) (location, suite) isSuite
    exact leads_of_suiteRequirements toSuite requirement ofSuite notMet

/-! ## Refused documents -/

/-- What stops the reading of a document is a requirement that is not met. -/
theorem exists_of_records_eq_error
    {fault : ReadingFault}
    (fails : records document = .error fault) :
    ∃ requirement ∈ requirements document,
      requirement.isMet = false ∧ requirement.fault = fault := by
  rw [records_eq_verify, Outcome.map_eq_error_iff] at fails
  exact exists_of_verify_eq_error fails

/-- A document is read just when all that it requires is met. -/
theorem exists_records_iff :
    (∃ found, records document = .ok found) ↔
      ∀ requirement ∈ requirements document, requirement.isMet = true := by
  rw [records_eq_verify, ← verify_eq_ok_iff]
  cases verify (requirements document) <;> simp [Except.map]

/--
A JSON object without infinite final durations is refused just when a value that must have
a shape has another one. The path in the message then leads to a value in the object, which
has not the shape that the message asks for, and whose kind is the one that it names.
-/
theorem records_malformed_iff
    (members : List (Text × Json.Value))
    (finite : ∀ requirement ∈ requirements (.object members), requirement.isInfinite = false) :
    ((∃ location shape value,
        records (.object members) = .error (.malformed location shape value)) ↔
      ∃ requirement ∈ requirements (.object members), requirement.isMet = false) ∧
    ∀ location shape value,
      records (.object members) = .error (.malformed location shape value) →
      (FileFault.reading (.malformed location shape value)).message =
          "Malformed test results: ".toList ++ location.toText ++ " must be " ++ shape.name ++
            ", got " ++ value.kindName ∧
        valueAt? (.object members) location.toText = some value ∧
        ⟨location, shape, value⟩ ∈ requirements (.object members) ∧
        shape.accepts value = false := by
  refine ⟨⟨?_, ?_⟩, ?_⟩
  · rintro ⟨location, shape, value, fails⟩
    obtain ⟨requirement, member, notMet, _⟩ := exists_of_records_eq_error fails
    exact ⟨requirement, member, notMet⟩
  · rintro ⟨requirement, member, notMet⟩
    cases outcome : records (.object members) with
    | ok found =>
        have met := exists_records_iff.mp ⟨found, outcome⟩ requirement member
        cases notMet.symm.trans met
    | error fault =>
        obtain ⟨first, isFirst, _, isFault⟩ := exists_of_records_eq_error outcome
        cases fault with
        | malformed location shape value => exact ⟨location, shape, value, rfl⟩
        | infiniteDuration =>
            cases (finite first isFirst).symm.trans (Requirement.isInfinite_of_fault isFault)
  · intro location shape value fails
    obtain ⟨requirement, member, notMet, isFault⟩ := exists_of_records_eq_error fails
    obtain rfl := Requirement.eq_of_fault_eq_malformed isFault
    exact ⟨rfl, (leads_of_not_isMet member notMet).valueAt?, member, notMet⟩

/-- An object in which the fourth attempt of a spec in a nested suite has a text for a duration. -/
theorem records_malformed_iff_of_late_text :
    let attempts : List Json.Value := [
      .object [], .object [("status", .string "failed")], .object [],
      .object [("duration", .string "soon")]]
    let spec : Json.Value := .object [("tests", .array [.object [("results", .array attempts)]])]
    let nested : Json.Value := .object [("specs", .array [.object [], .object [], spec])]
    let members : List (Text × Json.Value) :=
      [("suites", .array [.object [("suites", .array [.object [], nested])]])]
    let path : Text := "suites[0].suites[1].specs[2].tests[0].results[3].duration"
    (∀ requirement ∈ requirements (.object members), requirement.isInfinite = false) ∧
      (∃ requirement ∈ requirements (.object members), requirement.isMet = false) ∧
      ∃ location,
        records (.object members) = .error (.malformed location .number (.string "soon")) ∧
          location.toText = path ∧
          valueAt? (.object members) path = some (.string "soon") := by
  intro attempts spec nested members path
  have finite :
      ∀ requirement ∈ requirements (.object members), requirement.isInfinite = false := by
    decide +kernel
  obtain ⟨refused, located⟩ := records_malformed_iff members finite
  have fails : ∃ location,
      records (.object members) = .error (.malformed location .number (.string "soon")) ∧
        location.toText = path :=
    ⟨_, rfl, by decide +kernel⟩
  obtain ⟨location, isRefused, isPath⟩ := fails
  have leads := (located location _ _ isRefused).2.1
  rw [isPath] at leads
  exact ⟨finite, refused.mp ⟨location, _, _, isRefused⟩, location, isRefused, isPath, leads⟩

end TestAudit.Results
