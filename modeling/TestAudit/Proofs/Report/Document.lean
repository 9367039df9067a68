import TestAudit.Proofs.Criteria.Source
import TestAudit.Proofs.Criteria.Title
import TestAudit.Proofs.Report.Partition
import TestAudit.Proofs.Report.Rendering
import TestAudit.Proofs.Run.Spec
import TestAudit.Proofs.Run.Walk

namespace TestAudit.Report

/-!
# Runs whose document can be written

The report on the records of a results document is always compiled, on the catalog of any
project. It is rendered just when the durations can be shown: that of the run, that of
each criterion that tests name, and those of their tests.
-/

/--
What the document of a run shows can be shown: the duration of the run, the tests that
have a tag, and for each tag the duration of its tests together.
-/
structure RunShowable (records : List TestRecord) : Prop where
  run : Duration.Showable (totalDuration records)
  tests : ∀ record ∈ records, tag? record ≠ none → CardShowable record
  rows :
    ∀ id, (∃ record ∈ records, tag? record = some id) →
      Duration.Showable (totalDuration (testsOf id records))

/-- The tags of a document's records are identifiers, as its titles give them. -/
theorem isId_of_records
    {document : Json.Value}
    {records : List TestRecord}
    (read : Results.records document = .ok records)
    {record : TestRecord}
    (member : record ∈ records)
    {id : Text}
    (named : record.criterion = some id) :
    Criterion.isId id = true := by
  obtain ⟨_, _, _, _, isRecord⟩ := Results.exists_spec_of_mem_records read member
  rw [Results.criterion_of_specRecord? isRecord] at named
  exact Title.isId_of_criterion? named

theorem tag?_of_records
    {document : Json.Value}
    {records : List TestRecord}
    (read : Results.records document = .ok records)
    {record : TestRecord}
    (member : record ∈ records)
    {id : Text}
    (named : record.criterion = some id) :
    tag? record = some id :=
  tag?_eq_some_iff.mpr ⟨named, ne_nil_of_isId (isId_of_records read member named)⟩

/-- A report on criteria for all tags is rendered just when the run can be shown. -/
theorem renderable_iff
    {criteria : List Criterion}
    {records : List TestRecord}
    {images : List Image}
    {projectName timestamp : Text}
    (minimums : ∀ criterion ∈ criteria, Duration.HasNumeral criterion.minimum)
    (covers :
      ∀ record ∈ records, ∀ id, tag? record = some id → id ∈ criteria.map (·.id))
    (tagged : ∀ record ∈ records, ∀ id, record.criterion = some id → tag? record = some id) :
    Renderable (ofCriteria projectName timestamp records images criteria) ↔
      RunShowable records := by
  have isTest {record : TestRecord} {id : Text} (member : record ∈ records)
      (isTag : tag? record = some id) : record ∈ testsOf id records :=
    List.mem_filter.mpr ⟨member, decide_eq_true (tag?_eq_some_iff.mp isTag).1⟩
  constructor
  · intro renderable
    have rowShowable {record : TestRecord} {id : Text} (member : record ∈ records)
        (isTag : tag? record = some id) :
        Duration.Showable (totalDuration (testsOf id records)) ∧
          ∀ test ∈ testsOf id records, CardShowable test := by
      obtain ⟨criterion, isCriterion, rfl⟩ := List.mem_map.mp (covers record member id isTag)
      exact renderable.sections _ (List.mem_map_of_mem isCriterion)
        (List.ne_nil_of_mem (isTest member isTag))
    refine ⟨renderable.duration, ?_, ?_⟩
    · intro record member hasTag
      obtain ⟨id, isTag⟩ := Option.ne_none_iff_exists'.mp hasTag
      exact (rowShowable member isTag).2 record (isTest member isTag)
    · rintro id ⟨record, member, isTag⟩
      exact (rowShowable member isTag).1
  · intro showable
    refine ⟨showable.run, ?_, ?_⟩
    · intro row isRow
      obtain ⟨criterion, isCriterion, rfl⟩ := List.mem_map.mp isRow
      exact minimums criterion isCriterion
    · intro row isRow hasTests
      obtain ⟨criterion, _, rfl⟩ := List.mem_map.mp isRow
      have isTagged {record : TestRecord} (inRow : record ∈ testsOf criterion.id records) :
          record ∈ records ∧ tag? record = some criterion.id := by
        obtain ⟨member, named⟩ := List.mem_filter.mp inRow
        exact ⟨member, tagged record member _ (of_decide_eq_true named)⟩
      obtain ⟨record, inRow⟩ := List.exists_mem_of_ne_nil _ hasTests
      refine ⟨showable.rows criterion.id ⟨record, isTagged inRow⟩, ?_⟩
      intro test inTests
      obtain ⟨member, isTag⟩ := isTagged inTests
      exact showable.tests test member (by simp [isTag])

/-- A report is compiled on the records of a run, and its document is written in a template. -/
def WritesDocument
    (projectName timestamp : Text)
    (records : List TestRecord)
    (catalog : Catalog)
    (images : List Image)
    (template : Text) :
    Prop :=
  ∃ report text,
    (compile projectName timestamp records catalog images).value = .ok report ∧
      report.document template = .ok text

theorem writesDocument_iff_of_compiled
    {projectName timestamp : Text}
    {records : List TestRecord}
    {catalog : Catalog}
    {images : List Image}
    {report : Report}
    (compiled : (compile projectName timestamp records catalog images).value = .ok report)
    (template : Text) :
    WritesDocument projectName timestamp records catalog images template ↔
      Renderable report := by
  rw [← @exists_document_iff _ template]
  constructor
  · rintro ⟨other, text, isOther, isDocument⟩
    cases compiled.symm.trans isOther
    exact ⟨text, isDocument⟩
  · rintro ⟨text, isDocument⟩
    exact ⟨report, text, compiled, isDocument⟩

/--
For the records of any results document and the catalog of any project, a document is
written in any template exactly when the run can be shown.
-/
theorem writesDocument_iff
    {document : Json.Value}
    {records : List TestRecord}
    (read : Results.records document = .ok records)
    {project : Project}
    {titles : List Text}
    {config : Text}
    {sight : Sight}
    {catalog : Catalog}
    (resolved : (CriteriaSource.resolve project titles config sight).value = .ok catalog)
    (images : List Image)
    (projectName timestamp template : Text) :
    WritesDocument projectName timestamp records catalog images template ↔
      RunShowable records := by
  have numerals := CriteriaSource.hasNumerals_of_resolve resolved
  have valid :
      ∀ record ∈ records, ∀ id, tag? record = some id → Criterion.isId id = true :=
    fun record member id isTag => isId_of_records read member (tag?_eq_some_iff.mp isTag).1
  obtain ⟨added, compiled, ids, minimums⟩ :=
    value_compile projectName timestamp catalog images valid
  rw [writesDocument_iff_of_compiled compiled]
  refine renderable_iff ?_ ?_ fun record member id named => tag?_of_records read member named
  · refine List.forall_mem_append.mpr ⟨numerals, fun criterion isNew => ?_⟩
    rw [minimums criterion isNew]
    exact Criterion.hasNumeral_one
  · intro record member id isTag
    rw [List.map_append, List.mem_append, ids]
    by_cases known : id ∈ catalog.criteria.map (·.id)
    · exact Or.inl known
    · exact Or.inr (mem_newTags_iff.mpr ⟨⟨record, member, isTag⟩, known⟩)

/-- A results document with one spec, whose only attempt passed after that many milliseconds. -/
def oneSpec (title : Text) (milliseconds : Int) : Json.Value :=
  .object [("suites", .array [.object [("specs", .array [.object [
    ("title", .string title),
    ("tests", .array [.object [("results", .array [.object [
      ("status", .string "passed"), ("duration", .integer milliseconds)]])]])]])]])]

theorem records_oneSpec
    (title : Text)
    (milliseconds : Int) :
    Results.records (oneSpec title milliseconds) =
      .ok [{
        title, criterion := Title.criterion? title, status := .passed, duration := milliseconds
      }] := by
  rfl

theorem resolve_of_no_files :
    (CriteriaSource.resolve { root := .ofText "/demo" } [] []
        { tree := { nodes := [], workingDirectory := [] } }).value =
      .ok { source := "none" } := by
  decide +kernel

/-- A test of thirty milliseconds for a criterion that only its title names. -/
theorem writesDocument_of_short_duration :
    let record : TestRecord := {
      title := "AC-1: Loads", criterion := some "AC-1".toList, status := .passed, duration := 30
    }
    let catalog : Catalog := { source := "none" }
    Results.records (oneSpec "AC-1: Loads" 30) = .ok [record] ∧
      (CriteriaSource.resolve { root := .ofText "/demo" } [] []
        { tree := { nodes := [], workingDirectory := [] } }).value = .ok catalog ∧
      WritesDocument "Demo" "T" [record] catalog [] "x" := by
  intro record catalog
  have read : Results.records (oneSpec "AC-1: Loads" 30) = .ok [record] :=
    records_oneSpec "AC-1: Loads" 30
  have showable : RunShowable [record] := by
    refine ⟨by decide +kernel, by decide +kernel, ?_⟩
    rintro id ⟨_, member, isTag⟩
    cases List.mem_singleton.mp member
    cases isTag
    decide +kernel
  exact ⟨read, resolve_of_no_files,
    (writesDocument_iff read resolve_of_no_files _ _ _ _).mpr showable⟩

/-- A duration that is no number of seconds below the bound is read, but no document is written. -/
theorem not_writesDocument_of_long_duration :
    let record : TestRecord := { title := "Loads", status := .passed, duration := 10 ^ 312 }
    let catalog : Catalog := { source := "none" }
    Results.records (oneSpec "Loads" (10 ^ 312)) = .ok [record] ∧
      (CriteriaSource.resolve { root := .ofText "/demo" } [] []
        { tree := { nodes := [], workingDirectory := [] } }).value = .ok catalog ∧
      ¬ WritesDocument "Demo" "T" [record] catalog [] "x" := by
  intro record catalog
  refine ⟨records_oneSpec "Loads" (10 ^ 312), resolve_of_no_files, ?_⟩
  have untagged : ∀ other ∈ [record], ∀ id, tag? other = some id → Criterion.isId id = true := by
    rintro _ member id isTag
    cases List.mem_singleton.mp member
    cases isTag
  obtain ⟨added, compiled, _⟩ := value_compile "Demo" "T" catalog [] untagged
  rw [writesDocument_iff_of_compiled compiled]
  have tooLong : ¬ Duration.Showable (totalDuration [record]) := by decide +kernel
  exact fun renderable => tooLong renderable.duration

end TestAudit.Report
