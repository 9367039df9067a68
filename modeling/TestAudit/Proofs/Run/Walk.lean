import TestAudit.Proofs.Outcome
import TestAudit.Run.Results

namespace TestAudit.Results

/-!
# Reading a document as a walk

Reading a document comes to its specs one after the other, the own specs of a suite
before those of its nested suites, and stops at the first value of the wrong shape. So
the walk is a list, which the nesting of the suites only puts in order, and the records
of the document are those of the specs on it.
-/

/-- What a walk comes to: a value that stops it, or a spec of a suite with a file. -/
inductive Visit where
  | stop (fault : ReadingFault)
  | spec (suiteFile : Text) (location : Location) (value : Json.Value)

/-- The record of a spec, or the fault that stops the walk. -/
def Visit.read : Visit → Except ReadingFault (List TestRecord)
  | .stop fault => .error fault
  | .spec suiteFile location value => do
      return (← specRecord? suiteFile location value).toList

/-- The records of the specs on a walk. -/
def readAll : List Visit → Except ReadingFault (List TestRecord)
  | [] => .ok []
  | visit :: visits => do
      let first ← visit.read
      let others ← readAll visits
      return first ++ others

/-- A walk goes on with a value of the right shape, and stops at any other. -/
def proceed {α : Type} (checked : Except ReadingFault α) (next : α → List Visit) : List Visit :=
  match checked with
  | .ok value => next value
  | .error fault => [.stop fault]

/-- The walk over specs, the first of which has the given index. -/
def specVisits (suiteFile : Text) (location : Location) : Nat → List Json.Value → List Visit
  | _, [] => []
  | index, spec :: specs =>
      .spec suiteFile (location.item index) spec ::
        specVisits suiteFile location (index + 1) specs

mutual

/-- The walk over a suite: its own specs, then its nested suites. -/
def suiteVisits (location : Location) : Json.Value → List Visit
  | .object members =>
      let suite := Json.Value.object members
      proceed (asText (location.member "file") (suite.member "file")) fun file =>
        proceed (asList (location.member "specs") (suite.member "specs")) fun specs =>
          specVisits file (location.member "specs") 0 specs ++ nestedVisits location members
  | other => [.stop (.malformed location .object other)]

/-- The walk over the suites that the member of that name holds. -/
def nestedVisits (location : Location) : List (Text × Json.Value) → List Visit
  | [] => []
  | (name, value) :: members =>
      if name = "suites".toList then
        suitesVisits (location.member "suites") value
      else
        nestedVisits location members

/-- The walk over a list of suites. -/
def suitesVisits (location : Location) : Json.Value → List Visit
  | .null => []
  | .array suites => suiteListVisits location 0 suites
  | other => [.stop (.malformed location .list other)]

/-- The walk over suites, the first of which has the given index. -/
def suiteListVisits (location : Location) : Nat → List Json.Value → List Visit
  | _, [] => []
  | index, suite :: suites =>
      suiteVisits (location.item index) suite ++ suiteListVisits location (index + 1) suites

end

/-- The walk over a document. -/
def visits (document : Json.Value) : List Visit :=
  suitesVisits (Location.member [] "suites") (document.member "suites")

/-! ## Reading along a walk -/

theorem readAll_append
    (first second : List Visit) :
    readAll (first ++ second) = do
      let records ← readAll first
      let others ← readAll second
      return records ++ others := by
  induction first with
  | nil =>
      rw [List.nil_append]
      cases readAll second <;> rfl
  | cons visit rest inductionHypothesis =>
      rw [List.cons_append, readAll, inductionHypothesis, readAll]
      cases visit.read with
      | error fault => rfl
      | ok piece =>
          cases readAll rest with
          | error fault => rfl
          | ok records =>
              cases readAll second with
              | error fault => rfl
              | ok others => exact congrArg Except.ok (List.append_assoc piece records others).symm

theorem readAll_proceed
    {α : Type}
    (checked : Except ReadingFault α)
    (next : α → List Visit) :
    readAll (proceed checked next) = checked >>= fun value => readAll (next value) := by
  cases checked <;> rfl

theorem specRecords_eq_readAll
    (suiteFile : Text)
    (location : Location)
    (index : Nat)
    (specs : List Json.Value) :
    specRecords suiteFile location index specs =
      readAll (specVisits suiteFile location index specs) := by
  induction specs generalizing index with
  | nil => rfl
  | cons spec others inductionHypothesis =>
      rw [specRecords, specVisits, readAll, inductionHypothesis, Visit.read]
      cases specRecord? suiteFile (location.item index) spec <;> rfl

mutual

theorem suiteRecords_eq_readAll (location : Location) :
    (suite : Json.Value) → suiteRecords location suite = readAll (suiteVisits location suite)
  | .object members => by
      rw [suiteRecords, suiteVisits]
      simp only [readAll_proceed, readAll_append, specRecords_eq_readAll,
        nestedRecords_eq_readAll location members]
  | .null | .boolean _ | .integer _ | .real _ | .string _ | .array _ => rfl

theorem nestedRecords_eq_readAll (location : Location) :
    (members : List (Text × Json.Value)) →
      nestedRecords location members = readAll (nestedVisits location members)
  | [] => rfl
  | (name, value) :: members => by
      rw [nestedRecords, nestedVisits]
      split
      · exact suitesRecords_eq_readAll (location.member "suites") value
      · exact nestedRecords_eq_readAll location members

theorem suitesRecords_eq_readAll (location : Location) :
    (value : Json.Value) → suitesRecords location value = readAll (suitesVisits location value)
  | .array suites => suiteListRecords_eq_readAll location 0 suites
  | .null | .boolean _ | .integer _ | .real _ | .string _ | .object _ => rfl

theorem suiteListRecords_eq_readAll (location : Location) :
    (index : Nat) → (suites : List Json.Value) →
      suiteListRecords location index suites = readAll (suiteListVisits location index suites)
  | _, [] => rfl
  | index, suite :: suites => by
      rw [suiteListRecords, suiteListVisits, readAll_append,
        suiteRecords_eq_readAll (location.item index) suite,
        suiteListRecords_eq_readAll location (index + 1) suites]

end

/-- The records of a document are those on the walk over it. -/
theorem records_eq_readAll
    (document : Json.Value) :
    records document = readAll (visits document) :=
  suitesRecords_eq_readAll _ _

/-! ## Outcomes of a walk -/

/-- The records that a visit gives; one that fails gives none. -/
def Visit.records (visit : Visit) : List TestRecord :=
  match visit.read with
  | .ok records => records
  | .error _ => []

/-- A visit gives what reading it gives, unless that fails. -/
def Visit.Readable (visit : Visit) : Prop :=
  ∃ records, visit.read = .ok records

theorem Visit.read_eq_ok_iff
    {visit : Visit}
    {records : List TestRecord} :
    visit.read = .ok records ↔ visit.Readable ∧ records = visit.records := by
  unfold Readable Visit.records
  cases visit.read with
  | ok found => simp [eq_comm]
  | error fault => simp

/-- A walk on which every visit is readable gives their records in order. -/
theorem readAll_eq_ok_iff
    {visits : List Visit}
    {records : List TestRecord} :
    readAll visits = .ok records ↔
      (∀ visit ∈ visits, visit.Readable) ∧ records = visits.flatMap (·.records) := by
  induction visits generalizing records with
  | nil => simp [readAll, eq_comm]
  | cons visit rest inductionHypothesis =>
      simp only [readAll, Outcome.bind_eq_ok_iff, inductionHypothesis, Visit.read_eq_ok_iff,
        List.forall_mem_cons, List.flatMap_cons]
      constructor
      · rintro ⟨_, ⟨readable, rfl⟩, _, ⟨others, rfl⟩, same⟩
        cases same
        exact ⟨⟨readable, others⟩, rfl⟩
      · rintro ⟨⟨readable, others⟩, rfl⟩
        exact ⟨_, ⟨readable, rfl⟩, _, ⟨others, rfl⟩, rfl⟩

/-- The first visit that is not readable stops the walk with its fault. -/
theorem readAll_eq_error_iff
    {visits : List Visit}
    {fault : ReadingFault} :
    readAll visits = .error fault ↔
      ∃ before visit after,
        visits = before ++ visit :: after ∧
          (∀ earlier ∈ before, earlier.Readable) ∧ visit.read = .error fault := by
  induction visits with
  | nil => simp [readAll]
  | cons visit rest inductionHypothesis =>
      simp only [readAll, Outcome.bind_eq_error_iff, inductionHypothesis]
      constructor
      · rintro (stops | ⟨records, readable, ⟨before, later, after, rfl, earlier, stops⟩ | same⟩)
        · exact ⟨[], visit, rest, rfl, List.forall_mem_nil _, stops⟩
        · exact ⟨visit :: before, later, after, rfl,
            List.forall_mem_cons.mpr ⟨⟨records, readable⟩, earlier⟩, stops⟩
        · obtain ⟨_, _, impossible⟩ := same
          cases impossible
      · rintro ⟨before, later, after, shape, earlier, stops⟩
        cases before with
        | nil =>
            cases shape
            exact Or.inl stops
        | cons first before =>
            cases shape
            obtain ⟨⟨records, readable⟩, others⟩ := List.forall_mem_cons.mp earlier
            exact Or.inr ⟨records, readable, Or.inl ⟨before, later, after, rfl, others, stops⟩⟩

/-- Every record of a document is that of a spec on the walk over it. -/
theorem exists_spec_of_mem_records
    {document : Json.Value}
    {found : List TestRecord}
    {record : TestRecord}
    (read : records document = .ok found)
    (member : record ∈ found) :
    ∃ suiteFile location spec,
      .spec suiteFile location spec ∈ visits document ∧
        specRecord? suiteFile location spec = .ok (some record) := by
  rw [records_eq_readAll] at read
  obtain ⟨_, rfl⟩ := readAll_eq_ok_iff.mp read
  obtain ⟨visit, isVisit, inVisit⟩ := List.mem_flatMap.mp member
  cases visit with
  | stop fault => cases inVisit
  | spec suiteFile location spec =>
      refine ⟨suiteFile, location, spec, isVisit, ?_⟩
      rw [Visit.records, Visit.read] at inVisit
      cases outcome : specRecord? suiteFile location spec with
      | error fault =>
          rw [outcome] at inVisit
          cases inVisit
      | ok record? =>
          rw [outcome] at inVisit
          exact congrArg Except.ok (Option.mem_toList.mp inVisit)

end TestAudit.Results
