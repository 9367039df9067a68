import TestAudit.Proofs.Run.Requirement

namespace TestAudit.Results

/-!
# Records in document order

A document that is read gives one record for each attempted spec, in the order of its
suites. What a suite requires and what it gives does not depend on where it stands, so the
records of suites put side by side are put together, and suites around others that have no
specs of their own change nothing.
-/

/-! ## Suites wherever they stand -/

/-- Some suites and all that are nested in them, each before those nested in it. -/
def suitesBelow (suites : List Json.Value) : List Json.Value :=
  (suiteListIn [] 0 suites).map Prod.snd

mutual

theorem map_snd_suitesIn (location other : Location) :
    (value : Json.Value) →
      (suitesIn location value).map Prod.snd = (suitesIn other value).map Prod.snd
  | .array suites => map_snd_suiteListIn location other 0 0 suites
  | .null | .boolean _ | .integer _ | .real _ | .string _ | .object _ => rfl

theorem map_snd_suiteListIn (location other : Location) :
    (index start : Nat) → (suites : List Json.Value) →
      (suiteListIn location index suites).map Prod.snd =
        (suiteListIn other start suites).map Prod.snd
  | _, _, [] => rfl
  | index, start, suite :: suites => by
      rw [suiteListIn, suiteListIn, List.map_append, List.map_append, List.map_cons, List.map_cons,
        map_snd_nestedIn (location.item index) (other.item start) suite,
        map_snd_suiteListIn location other (index + 1) (start + 1) suites]

theorem map_snd_nestedIn (location other : Location) :
    (suite : Json.Value) →
      (nestedIn location suite).map Prod.snd = (nestedIn other suite).map Prod.snd
  | .object members => map_snd_nestedInMember location other members
  | .null | .boolean _ | .integer _ | .real _ | .string _ | .array _ => rfl

theorem map_snd_nestedInMember (location other : Location) :
    (members : List (Text × Json.Value)) →
      (nestedInMember location members).map Prod.snd =
        (nestedInMember other members).map Prod.snd
  | [] => rfl
  | (name, value) :: members => by
      rw [nestedInMember, nestedInMember]
      split
      · exact map_snd_suitesIn (location.member "suites") (other.member "suites") value
      · exact map_snd_nestedInMember location other members

end

theorem map_snd_documentSuites
    {document : Json.Value}
    {suites : List Json.Value}
    (areSuites : document.member "suites" = .array suites) :
    (documentSuites document).map Prod.snd = suitesBelow suites := by
  rw [documentSuites, areSuites]
  exact map_snd_suiteListIn _ _ 0 0 suites

@[simp] theorem suitesBelow_nil : suitesBelow [] = [] :=
  rfl

theorem suitesBelow_cons
    (suite : Json.Value)
    (suites : List Json.Value) :
    suitesBelow (suite :: suites) =
      suite :: (nestedIn [] suite).map Prod.snd ++ suitesBelow suites := by
  rw [suitesBelow, suiteListIn, List.map_append, List.map_cons, suitesBelow,
    map_snd_suiteListIn [] [] 1 0, map_snd_nestedIn _ []]

theorem suitesBelow_append
    (first second : List Json.Value) :
    suitesBelow (first ++ second) = suitesBelow first ++ suitesBelow second := by
  induction first with
  | nil => rfl
  | cons suite suites inductionHypothesis =>
      rw [List.cons_append, suitesBelow_cons, suitesBelow_cons, inductionHypothesis,
        List.append_assoc]

/-- Below a suite alone come the suites below those nested in it. -/
theorem suitesBelow_singleton
    {suite : Json.Value}
    {suites : List Json.Value}
    (areNested : suite.member "suites" = .array suites) :
    suitesBelow [suite] = suite :: suitesBelow suites := by
  rw [suitesBelow_cons, nestedIn_eq_suitesIn, areNested, suitesBelow_nil, List.append_nil]
  congr 1
  exact map_snd_suiteListIn _ _ 0 0 suites

/-! ## Requirements wherever they stand -/

theorem map_isMet_testRequirements
    (location other : Location)
    (spec test : Json.Value) :
    (testRequirements location spec test).map (·.isMet) =
      (testRequirements other spec test).map (·.isMet) := by
  simp only [testRequirements, objectRequirements, List.map_append, List.map_map]
  congr 1
  cases (test.member "results").elements.getLast? with
  | none => rfl
  | some final => rfl

theorem map_isMet_specRequirements
    (location other : Location)
    (spec : Json.Value) :
    (specRequirements location spec).map (·.isMet) =
      (specRequirements other spec).map (·.isMet) := by
  rw [specRequirements, specRequirements, List.map_append, List.map_append]
  congr 1
  cases (spec.member "tests").elements with
  | nil => rfl
  | cons test others => exact map_isMet_testRequirements location other spec test

theorem map_isMet_suiteRequirements
    (location other : Location)
    (suite : Json.Value) :
    (suiteRequirements location suite).map (·.isMet) =
      (suiteRequirements other suite).map (·.isMet) := by
  have specs (place : Location) :
      (specListRequirements place 0 (suite.member "specs").elements).map (·.isMet) =
        ((suite.member "specs").elements.zipIdx 0).flatMap fun spec =>
          (specRequirements [] spec.1).map (·.isMet) := by
    rw [specListRequirements, List.map_flatMap]
    congr 1
    funext spec
    exact map_isMet_specRequirements _ _ spec.1
  simp only [suiteRequirements, List.map_append, specs]
  rfl

/-- All that a suite requires is met, its nested suites apart. -/
def Passes (suite : Json.Value) : Prop :=
  ∀ requirement ∈ suiteRequirements [] suite, requirement.isMet = true

theorem passes_iff
    (location : Location)
    {suite : Json.Value} :
    (∀ requirement ∈ suiteRequirements location suite, requirement.isMet = true) ↔
      Passes suite := by
  have same :
      (suiteRequirements location suite).all (·.isMet) =
        (suiteRequirements [] suite).all (·.isMet) := by
    have maps := congrArg (·.all id) (map_isMet_suiteRequirements location [] suite)
    simpa only [List.all_map, Function.comp_def, id_eq] using maps
  rw [Passes, ← List.all_eq_true, ← List.all_eq_true, same]

/-- Reading a list of suites gives the records of all suites below, if all of them pass. -/
theorem records_eq_ok_iff
    {document : Json.Value}
    {suites : List Json.Value}
    {found : List TestRecord}
    (areSuites : document.member "suites" = .array suites) :
    records document = .ok found ↔
      (∀ suite ∈ suitesBelow suites, Passes suite) ∧
        found = recordsFor ((suitesBelow suites).flatMap specsOf) := by
  have passing :
      verify (requirements document) = .ok () ↔ ∀ suite ∈ suitesBelow suites, Passes suite := by
    rw [verify_eq_ok_iff, requirements, List.forall_mem_cons, ← map_snd_documentSuites areSuites]
    simp only [requirementsOf, List.mem_flatMap, List.mem_map]
    constructor
    · rintro ⟨_, met⟩ _ ⟨⟨location, suite⟩, isSuite, rfl⟩
      exact (passes_iff location).mp fun requirement member => met _ ⟨_, isSuite, member⟩
    · intro passes
      refine ⟨by rw [Requirement.isMet, areSuites]; rfl, ?_⟩
      rintro requirement ⟨⟨location, suite⟩, isSuite, member⟩
      exact (passes_iff location).mpr (passes _ ⟨_, isSuite, rfl⟩) requirement member
  have specs : documentSpecs document = (suitesBelow suites).flatMap specsOf := by
    rw [documentSpecs, specsIn, ← map_snd_documentSuites areSuites, List.flatMap_map]
  rw [records_eq_verify, specs, ← passing]
  cases verify (requirements document) with
  | ok => simp [Except.map, eq_comm]
  | error fault => simp [Except.map]

/-! ## Composition -/

/-- Suites without specs stand around other suites, one around the other. -/
inductive Encloses (suites : List Json.Value) : List Json.Value → Prop where
  | refl : Encloses suites suites
  | around {inner : List Json.Value} {outer : Json.Value} :
      Encloses suites inner →
      outer.member "suites" = .array inner →
      (outer.member "specs" = .null ∨ outer.member "specs" = .array []) →
      (outer.member "file").IsText →
      Encloses suites [outer]

theorem passes_of_no_specs
    {suites : List Json.Value}
    {suite : Json.Value}
    (areNested : suite.member "suites" = .array suites)
    (noSpecs : suite.member "specs" = .null ∨ suite.member "specs" = .array [])
    (file : (suite.member "file").IsText) :
    Passes suite := by
  have isObject : Shape.object.accepts suite = true := by
    cases suite with
    | object members => rfl
    | _ => cases areNested
  have isText : Shape.string.accepts (suite.member "file") = true := by
    rcases file with null | ⟨text, isText⟩
    · rw [null]
      rfl
    · rw [isText]
      rfl
  have noElements :
      Shape.list.accepts (suite.member "specs") = true ∧ (suite.member "specs").elements = [] := by
    rcases noSpecs with null | empty
    · rw [null]
      exact ⟨rfl, rfl⟩
    · rw [empty]
      exact ⟨rfl, rfl⟩
  refine List.forall_mem_append.mpr ⟨List.forall_mem_append.mpr ⟨?_, ?_⟩, ?_⟩
  · simp only [List.forall_mem_cons, List.not_mem_nil, false_implies, implies_true, and_true]
    exact ⟨isObject, isText, noElements.1⟩
  · rw [noElements.2]
    exact List.forall_mem_nil _
  · refine List.forall_mem_singleton.mpr ?_
    rw [Requirement.isMet, areNested]
    rfl

theorem Encloses.records
    {suites outer : List Json.Value}
    (encloses : Encloses suites outer)
    (passes : ∀ suite ∈ suitesBelow suites, Passes suite) :
    (∀ suite ∈ suitesBelow outer, Passes suite) ∧
      (suitesBelow outer).flatMap specsOf = (suitesBelow suites).flatMap specsOf := by
  induction encloses with
  | refl => exact ⟨passes, rfl⟩
  | around _ areNested noSpecs file inductionHypothesis =>
      obtain ⟨innerPass, sameSpecs⟩ := inductionHypothesis
      rw [suitesBelow_singleton areNested, List.forall_mem_cons, List.flatMap_cons, sameSpecs]
      refine ⟨⟨passes_of_no_specs areNested noSpecs file, innerPass⟩, ?_⟩
      rcases noSpecs with null | empty
      · rw [specsOf, null]
        rfl
      · rw [specsOf, empty]
        rfl

/--
The records of a document are those of its attempted specs, one for each, in the order of
its suites. Reading two lists of suites one behind the other gives the records of both, and
reading suites inside others without specs gives the same records.
-/
theorem records_in_document_order :
    (∀ document found,
      records document = .ok found →
      List.Forall₂ (fun (suiteFile, spec) record => recordFor? suiteFile spec = some record)
        ((documentSpecs document).filter fun (_, spec) => isAttempted spec) found) ∧
    (∀ first second both suites others found foundOthers,
      first.member "suites" = .array suites →
      second.member "suites" = .array others →
      both.member "suites" = .array (suites ++ others) →
      records first = .ok found →
      records second = .ok foundOthers →
      records both = .ok (found ++ foundOthers)) ∧
    ∀ document enclosing suites outer found,
      document.member "suites" = .array suites →
      enclosing.member "suites" = .array outer →
      Encloses suites outer →
      records document = .ok found →
      records enclosing = .ok found := by
  refine ⟨?_, ?_, ?_⟩
  · intro document found read
    rw [records_eq_verify] at read
    cases outcome : verify (requirements document) with
    | error fault =>
        rw [outcome] at read
        cases read
    | ok =>
        rw [outcome] at read
        cases read
        exact forall₂_recordsFor (documentSpecs document)
  · intro first second both suites others found foundOthers areSuites areOthers areBoth read
      readOthers
    obtain ⟨pass, rfl⟩ := (records_eq_ok_iff areSuites).mp read
    obtain ⟨othersPass, rfl⟩ := (records_eq_ok_iff areOthers).mp readOthers
    rw [records_eq_ok_iff areBoth, suitesBelow_append, List.flatMap_append, recordsFor_append]
    exact ⟨List.forall_mem_append.mpr ⟨pass, othersPass⟩, rfl⟩
  · intro document enclosing suites outer found areSuites areOuter encloses read
    obtain ⟨pass, rfl⟩ := (records_eq_ok_iff areSuites).mp read
    obtain ⟨outerPass, sameSpecs⟩ := encloses.records pass
    rw [records_eq_ok_iff areOuter, sameSpecs]
    exact ⟨outerPass, rfl⟩

/-- A suite with an attempted spec, one with a spec that is not, and two suites around both. -/
theorem records_in_document_order_of_nested :
    let spec (title : Text) : Json.Value := .object [
      ("title", .string title),
      ("tests", .array [.object [("results", .array [.object [("status", .string "passed")]])]])]
    let first : Json.Value := .object [
      ("file", .string "a.ts"), ("specs", .array [spec "AC-1: Loads"]),
      ("suites", .array [.object [("specs", .array [spec "Nested"])]])]
    let second : Json.Value := .object [("specs", .array [.object [], spec "Last"])]
    let inner : Json.Value := .object [("suites", .array [first, second])]
    let outer : Json.Value := .object [("file", .string "b.ts"), ("suites", .array [inner])]
    let enclosing : Json.Value := .object [("suites", .array [outer])]
    let document (suites : List Json.Value) : Json.Value := .object [("suites", .array suites)]
    let record (title file : Text) (criterion : Option Text) : TestRecord :=
      { title, file, criterion, status := .passed }
    let found := [record "AC-1: Loads" "a.ts" (some "AC-1".toList), record "Nested" [] none]
    let others := [record "Last" [] none]
    records (document [first]) = .ok found ∧
      records (document [second]) = .ok others ∧
      List.Forall₂ (fun (suiteFile, spec) record => recordFor? suiteFile spec = some record)
        ((documentSpecs (document [first])).filter fun (_, spec) => isAttempted spec) found ∧
      records (document [first, second]) = .ok (found ++ others) ∧
      Encloses [first, second] [outer] ∧
      records enclosing = .ok (found ++ others) := by
  intro spec first second inner outer enclosing document record found others
  obtain ⟨each, sideBySide, around⟩ := records_in_document_order
  have read : records (document [first]) = .ok found := rfl
  have readOthers : records (document [second]) = .ok others := rfl
  have readBoth : records (document [first, second]) = .ok (found ++ others) :=
    sideBySide (document [first]) (document [second]) (document [first, second])
      [first] [second] found others rfl rfl rfl read readOthers
  have encloses : Encloses [first, second] [outer] :=
    .around (.around .refl rfl (Or.inl rfl) (Or.inl rfl)) rfl (Or.inl rfl)
      (Or.inr ⟨"b.ts".toList, rfl⟩)
  exact ⟨read, readOthers, each _ _ read, readBoth, encloses,
    around (document [first, second]) enclosing [first, second] [outer] (found ++ others)
      rfl rfl encloses readBoth⟩

end TestAudit.Results
