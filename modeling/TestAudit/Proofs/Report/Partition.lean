import Mathlib.Algebra.BigOperators.Group.List.Basic
import Mathlib.Algebra.GroupWithZero.Nat
import Mathlib.Algebra.Ring.Int.Defs
import TestAudit.Proofs.Distinct
import TestAudit.Report.Compile

namespace TestAudit.Report

/-!
# Rows as a partition of the records

The rows of a report have different identifiers: those of the catalog, then those
that only records name. So each tagged record is in the tests of one row, and what
the rows count together with the records that have no tag is what the report counts.
-/

variable {criteria : List Criterion} {records : List TestRecord} {images : List Image}

/-! ## Tags -/

theorem tag?_eq_some_iff
    {record : TestRecord}
    {id : Text} :
    tag? record = some id ↔ record.criterion = some id ∧ id ≠ [] := by
  simp [tag?, Option.filter_eq_some_iff]

theorem testsOf_eq_filter_tag?
    {id : Text}
    (notEmpty : id ≠ [])
    (records : List TestRecord) :
    testsOf id records = records.filter (tag? · = some id) := by
  refine List.filter_congr fun record _ => ?_
  simp [tag?_eq_some_iff, notEmpty]

/-- An identifier of a criterion is not empty. -/
theorem ne_nil_of_isId
    {id : Text}
    (isId : Criterion.isId id = true) :
    id ≠ [] := by
  rintro rfl
  cases isId

/-! ## Criteria of a report -/

/--
The criteria have different identifiers, none of them empty, and every tag of the
records is among them.
-/
structure Covering (criteria : List Criterion) (records : List TestRecord) : Prop where
  different : (criteria.map (·.id)).Nodup
  notEmpty : ∀ criterion ∈ criteria, criterion.id ≠ []
  covers : ∀ record ∈ records, ∀ id, tag? record = some id → id ∈ criteria.map (·.id)

/-- The tags of records that are no identifiers of the criteria, each once, in their order. -/
def newTags (criteria : List Criterion) (records : List TestRecord) : List Text :=
  (distinctBy (fun tag => tag) (records.filterMap tag?)).filter fun tag =>
    !(criteria.any (·.id = tag))

theorem mem_newTags_iff
    {tag : Text} :
    tag ∈ newTags criteria records ↔
      (∃ record ∈ records, tag? record = some tag) ∧ tag ∉ criteria.map (·.id) := by
  have isTag :
      tag ∈ distinctBy (fun tag => tag) (records.filterMap tag?) ↔
        ∃ record ∈ records, tag? record = some tag := by
    rw [← List.mem_filterMap]
    refine ⟨mem_of_mem_distinctBy, fun member => ?_⟩
    obtain ⟨_, isDistinct, rfl⟩ :=
      @exists_mem_distinctBy _ _ _ (fun tag => tag) _ _ member
    exact isDistinct
  rw [newTags, List.mem_filter, isTag]
  simp

theorem nodup_newTags
    (criteria : List Criterion)
    (records : List TestRecord) :
    (newTags criteria records).Nodup :=
  List.Nodup.filter _ (@pairwise_distinctBy _ _ _ (fun tag => tag) _)

theorem newTags_of_known
    {record : TestRecord}
    {id : Text}
    (tagged : tag? record = some id)
    (known : criteria.any (·.id = id) = true) :
    newTags criteria (record :: records) = newTags criteria records := by
  rw [newTags, List.filterMap_cons_some tagged, distinctBy,
    List.filter_cons_of_neg (by simp [known]), List.filter_filter, newTags]
  refine List.filter_congr fun other _ => ?_
  by_cases same : other = id
  · simp [same, known]
  · simp [same]

theorem newTags_of_new
    {record : TestRecord}
    {added : Criterion}
    (tagged : tag? record = some added.id)
    (new : criteria.any (·.id = added.id) = false) :
    newTags criteria (record :: records) =
      added.id :: newTags (criteria ++ [added]) records := by
  rw [newTags, List.filterMap_cons_some tagged, distinctBy,
    List.filter_cons_of_pos (by simp [new]), List.filter_filter, newTags]
  refine congrArg (added.id :: ·) (List.filter_congr fun other _ => ?_)
  by_cases same : other = added.id
  · simp [same]
  · simp [same, Ne.symm same]

/-- Valid tags make the criteria of a report, which add one criterion for each new tag. -/
theorem value_withDiscovered
    (criteria : List Criterion)
    (valid :
      ∀ record ∈ records, ∀ id, tag? record = some id → Criterion.isId id = true) :
    ∃ added,
      (withDiscovered criteria records).value = .ok (criteria ++ added) ∧
        added.map (·.id) = newTags criteria records ∧
        ∀ criterion ∈ added, criterion.minimum = 1 := by
  -- A criterion that is added for a record is known to the records behind it.
  induction records generalizing criteria with
  | nil => exact ⟨[], by simp [withDiscovered, newTags, distinctBy]⟩
  | cons record others inductionHypothesis =>
      have othersValid :
          ∀ other ∈ others, ∀ id, tag? other = some id → Criterion.isId id = true :=
        fun other member => valid other (List.mem_cons_of_mem _ member)
      cases tagged : tag? record with
      | none =>
          have unknown : unknownTag? criteria record = none := by
            simp [unknownTag?, tagged]
          obtain ⟨added, result, ids, minimums⟩ := inductionHypothesis criteria othersValid
          refine ⟨added, ?_, ?_, minimums⟩
          · rw [withDiscovered, unknown]
            exact result
          · rw [ids, newTags, newTags, List.filterMap_cons_none tagged]
      | some id =>
          cases known : criteria.any (·.id = id) with
          | true =>
              have unknown : unknownTag? criteria record = none := by
                simp [unknownTag?, tagged, Option.filter, known]
              obtain ⟨added, result, ids, minimums⟩ := inductionHypothesis criteria othersValid
              refine ⟨added, ?_, ?_, minimums⟩
              · rw [withDiscovered, unknown]
                exact result
              · rw [ids, newTags_of_known tagged known]
          | false =>
              have unknown : unknownTag? criteria record = some id := by
                simp [unknownTag?, tagged, Option.filter, known]
              have isId := valid record List.mem_cons_self id tagged
              obtain ⟨added, result, ids, minimums⟩ :=
                inductionHypothesis (criteria ++ [discovered id record.title]) othersValid
              refine ⟨discovered id record.title :: added, ?_, ?_,
                List.forall_mem_cons.mpr ⟨rfl, minimums⟩⟩
              · rw [withDiscovered, unknown]
                simpa [isId] using result
              · rw [List.map_cons, ids]
                exact (newTags_of_new tagged known).symm

/-- The criteria of a catalog and those of the new tags cover the records. -/
theorem covering_append
    {added : List Criterion}
    (wellFormed : ∀ criterion ∈ criteria, criterion.WellFormed)
    (different : (criteria.map (·.id)).Nodup)
    (ids : added.map (·.id) = newTags criteria records) :
    Covering (criteria ++ added) records where
  different := by
    rw [List.map_append, ids]
    refine different.append (nodup_newTags criteria records) ?_
    intro id known new
    exact (mem_newTags_iff.mp new).2 known
  notEmpty := by
    intro criterion member
    rcases List.mem_append.mp member with known | new
    · exact ne_nil_of_isId (wellFormed criterion known).1
    · have isNew : criterion.id ∈ newTags criteria records :=
        ids ▸ List.mem_map_of_mem new
      obtain ⟨record, _, tagged⟩ := (mem_newTags_iff.mp isNew).1
      exact (tag?_eq_some_iff.mp tagged).2
  covers := by
    intro record member id tagged
    rw [List.map_append, List.mem_append, ids]
    by_cases known : id ∈ criteria.map (·.id)
    · exact Or.inl known
    · exact Or.inr (mem_newTags_iff.mpr ⟨⟨record, member, tagged⟩, known⟩)

/-! ## Rows -/

/-- Each test has one of the three statuses. -/
theorem countStatus_add
    (tests : List TestRecord) :
    countStatus .passed tests + countStatus .failed tests + countStatus .skipped tests =
      tests.length := by
  induction tests with
  | nil => rfl
  | cons test others inductionHypothesis =>
      simp only [countStatus, List.countP_cons, List.length_cons] at inductionHypothesis ⊢
      cases test.status <;> simp <;> omega

@[simp] theorem row_criterion (criterion : Criterion) :
    (row records images criterion).criterion = criterion :=
  rfl

@[simp] theorem row_tests (criterion : Criterion) :
    (row records images criterion).tests = testsOf criterion.id records :=
  rfl

@[simp] theorem row_passed (criterion : Criterion) :
    (row records images criterion).passed =
      countStatus .passed (testsOf criterion.id records) :=
  rfl

@[simp] theorem row_failed (criterion : Criterion) :
    (row records images criterion).failed =
      countStatus .failed (testsOf criterion.id records) :=
  rfl

@[simp] theorem row_skipped (criterion : Criterion) :
    (row records images criterion).skipped =
      countStatus .skipped (testsOf criterion.id records) :=
  Nat.sub_eq_of_eq_add' (countStatus_add _).symm

@[simp] theorem row_duration (criterion : Criterion) :
    (row records images criterion).duration =
      totalDuration (testsOf criterion.id records) :=
  rfl

/-- The records that have no tag. -/
def untagged (records : List TestRecord) : List TestRecord :=
  records.filter (tag? · = none)

theorem Covering.testsOf_eq
    (covering : Covering criteria records)
    {criterion : Criterion}
    (member : criterion ∈ criteria) :
    testsOf criterion.id records = records.filter (tag? · = some criterion.id) :=
  testsOf_eq_filter_tag? (covering.notEmpty criterion member) records

/-- The tests of all rows and the records without a tag are all records, each once. -/
theorem Covering.perm_tests
    (covering : Covering criteria records) :
    (criteria.flatMap (fun criterion => testsOf criterion.id records) ++ untagged records).Perm
      records := by
  have rows :
      criteria.flatMap (fun criterion => testsOf criterion.id records) =
        (criteria.map (·.id)).flatMap fun id => records.filter (tag? · = some id) := by
    rw [List.flatMap_map]
    exact List.flatMap_congr fun criterion member => covering.testsOf_eq member
  have tagged :
      (records.filter fun record => (criteria.map (·.id)).any (tag? record = some ·)) =
        records.filter fun record => !decide (tag? record = none) := by
    refine List.filter_congr fun record member => ?_
    cases isTag : tag? record with
    | none => simp
    | some id =>
        obtain ⟨criterion, isCriterion, rfl⟩ :=
          List.mem_map.mp (covering.covers record member id isTag)
        simpa using ⟨criterion, isCriterion, rfl⟩
  rw [rows]
  refine ((perm_groups covering.different tag? records).append_right _).trans ?_
  rw [tagged]
  exact List.perm_append_comm.trans (List.filter_append_perm _ records)

/-! ## Counts -/

theorem totalDuration_eq_sum
    (tests : List TestRecord) :
    totalDuration tests = (tests.map (·.duration)).sum := by
  induction tests with
  | nil => rfl
  | cons test others inductionHypothesis =>
      rw [totalDuration, inductionHypothesis, List.map_cons, List.sum_cons]

theorem Covering.sum_countStatus
    (covering : Covering criteria records)
    (status : TestStatus) :
    (criteria.map fun criterion => countStatus status (testsOf criterion.id records)).sum +
        countStatus status (untagged records) =
      countStatus status records := by
  have counts := covering.perm_tests.countP_eq (·.status = status)
  rwa [List.countP_append, List.countP_flatMap] at counts

theorem Covering.sum_length
    (covering : Covering criteria records) :
    (criteria.map fun criterion => (testsOf criterion.id records).length).sum +
        (untagged records).length =
      records.length := by
  have lengths := covering.perm_tests.length_eq
  rwa [List.length_append, List.length_flatMap] at lengths

theorem Covering.sum_totalDuration
    (covering : Covering criteria records) :
    (criteria.map fun criterion => totalDuration (testsOf criterion.id records)).sum +
        totalDuration (untagged records) =
      totalDuration records := by
  have durations := (covering.perm_tests.map (·.duration)).sum_eq
  rw [List.map_append, List.sum_append, List.map_flatMap, List.flatMap, List.sum_flatten,
    List.map_map] at durations
  simp only [totalDuration_eq_sum]
  exact durations

/-! ## Compiled reports -/

/--
The rows of a report partition the records by their tags, behind the criteria of a
catalog, and what the rows count agrees with what the report counts.
-/
structure Partitions (report : Report) (catalog : Catalog) (records : List TestRecord) :
    Prop where
  /-- The catalog's identifiers come first, then the new tags in order of first appearance. -/
  ids :
    report.coverage.map (·.criterion.id) =
      catalog.criteria.map (·.id) ++ newTags catalog.criteria records
  different : (report.coverage.map (·.criterion.id)).Nodup
  /-- A row has the records with its identifier, in their order. -/
  tests :
    ∀ row ∈ report.coverage,
      row.tests = records.filter (tag? · = some row.criterion.id)
  /-- A tagged record is in exactly one row. -/
  placed :
    ∀ record ∈ records, ∀ id,
      tag? record = some id →
      ∃ row ∈ report.coverage,
        row.criterion.id = id ∧ record ∈ row.tests ∧
          ∀ other ∈ report.coverage, record ∈ other.tests → other = row
  /-- A record without a tag is in no row. -/
  unplaced :
    ∀ record, tag? record = none → ∀ row ∈ report.coverage, record ∉ row.tests
  passed :
    (report.coverage.map (·.passed)).sum + countStatus .passed (untagged records) =
      report.passed
  failed :
    (report.coverage.map (·.failed)).sum + countStatus .failed (untagged records) =
      report.failed
  skipped :
    (report.coverage.map (·.skipped)).sum + countStatus .skipped (untagged records) =
      report.skipped
  total :
    (report.coverage.map (·.tests.length)).sum + (untagged records).length = report.total
  duration :
    (report.coverage.map (·.duration)).sum + totalDuration (untagged records) =
      report.duration
  figures :
    report.passed = countStatus .passed records ∧
      report.failed = countStatus .failed records ∧
      report.skipped = countStatus .skipped records ∧
      report.duration = totalDuration records
  outcomes : report.passed + report.failed + report.skipped = report.total
  all : report.total = records.length

/-- The report on criteria that cover the records has a row for each of them. -/
theorem Covering.partitions
    {catalog : Catalog}
    {added : List Criterion}
    (covering : Covering (catalog.criteria ++ added) records)
    (ids : added.map (·.id) = newTags catalog.criteria records)
    (projectName timestamp : Text)
    (images : List Image) :
    Partitions (ofCriteria projectName timestamp records images (catalog.criteria ++ added))
      catalog records where
  ids := by
    simp [ofCriteria, ← ids, Function.comp_def]
  different := by
    simpa [ofCriteria, Function.comp_def] using covering.different
  tests := by
    intro row member
    obtain ⟨criterion, isCriterion, rfl⟩ := List.mem_map.mp member
    exact covering.testsOf_eq isCriterion
  placed := by
    intro record member id tagged
    obtain ⟨criterion, isCriterion, rfl⟩ :=
      List.mem_map.mp (covering.covers record member id tagged)
    refine ⟨row records images criterion, List.mem_map_of_mem isCriterion, rfl, ?_, ?_⟩
    · rw [row_tests, covering.testsOf_eq isCriterion]
      simp [member, tagged]
    · intro other isOther inOther
      obtain ⟨otherCriterion, isOtherCriterion, rfl⟩ := List.mem_map.mp isOther
      rw [row_tests, covering.testsOf_eq isOtherCriterion, List.mem_filter, tagged] at inOther
      have sameId : criterion.id = otherCriterion.id := by simpa using inOther.2
      rw [List.inj_on_of_nodup_map covering.different isCriterion isOtherCriterion sameId]
  unplaced := by
    intro record noTag row isRow inRow
    obtain ⟨criterion, isCriterion, rfl⟩ := List.mem_map.mp isRow
    rw [row_tests, covering.testsOf_eq isCriterion, List.mem_filter, noTag] at inRow
    simp at inRow
  passed := by
    simpa [ofCriteria, Function.comp_def] using covering.sum_countStatus .passed
  failed := by
    simpa [ofCriteria, Function.comp_def] using covering.sum_countStatus .failed
  skipped := by
    simpa [ofCriteria, Function.comp_def] using covering.sum_countStatus .skipped
  total := by
    simpa [ofCriteria, Function.comp_def] using covering.sum_length
  duration := by
    simpa [ofCriteria, Function.comp_def] using covering.sum_totalDuration
  figures := ⟨rfl, rfl, rfl, rfl⟩
  outcomes := countStatus_add records
  all := rfl

/-- Records whose tags are valid are compiled, with one criterion more for each new tag. -/
theorem value_compile
    (projectName timestamp : Text)
    (catalog : Catalog)
    (images : List Image)
    (valid :
      ∀ record ∈ records, ∀ id, tag? record = some id → Criterion.isId id = true) :
    ∃ added,
      (compile projectName timestamp records catalog images).value =
          .ok (ofCriteria projectName timestamp records images (catalog.criteria ++ added)) ∧
        added.map (·.id) = newTags catalog.criteria records ∧
        ∀ criterion ∈ added, criterion.minimum = 1 := by
  obtain ⟨added, result, ids, minimums⟩ := value_withDiscovered catalog.criteria valid
  refine ⟨added, ?_, ids, minimums⟩
  rw [compile, Logged.value_bind, result]
  rfl

/--
On a catalog of valid, different identifiers and records whose tags are valid, a report
is compiled, and its rows partition the records.
-/
theorem compile_partitions
    (projectName timestamp : Text)
    {records : List TestRecord}
    {catalog : Catalog}
    (images : List Image)
    (wellFormed : ∀ criterion ∈ catalog.criteria, criterion.WellFormed)
    (different : (catalog.criteria.map (·.id)).Nodup)
    (valid :
      ∀ record ∈ records, ∀ id, tag? record = some id → Criterion.isId id = true) :
    ∃ report,
      (compile projectName timestamp records catalog images).value = .ok report ∧
        Partitions report catalog records := by
  obtain ⟨added, result, ids, _⟩ := value_compile projectName timestamp catalog images valid
  have covering := covering_append wellFormed different ids
  exact ⟨_, result, covering.partitions ids projectName timestamp images⟩

/-- One row of the catalog, one that only records name, and records without a tag. -/
theorem compile_partitions_discovered :
    let catalog : Catalog := {
      criteria := [{ id := "AC-2", description := "Deletes", provenance := .markdown }]
    }
    let records : List TestRecord := [
      { title := "AC-7: Sorts", criterion := some "AC-7".toList, status := .failed },
      { title := "Loads", status := .passed, duration := 30 },
      { title := "AC-2: Deletes", criterion := some "AC-2".toList, status := .skipped },
      { title := "Empty", criterion := some [], status := .passed },
      { title := "AC-7", criterion := some "AC-7".toList, status := .passed, duration := -5 }]
    (∀ criterion ∈ catalog.criteria, criterion.WellFormed) ∧
      (catalog.criteria.map (·.id)).Nodup ∧
      (∀ record ∈ records, ∀ id, tag? record = some id → Criterion.isId id = true) ∧
      newTags catalog.criteria records = ["AC-7".toList] ∧
      ∃ report,
        (compile "Demo" "T" records catalog []).value = .ok report ∧
          Partitions report catalog records := by
  intro catalog records
  have wellFormed : ∀ criterion ∈ catalog.criteria, criterion.WellFormed := by decide
  have different : (catalog.criteria.map (·.id)).Nodup := by decide
  have valid :
      ∀ record ∈ records, ∀ id, tag? record = some id → Criterion.isId id = true := by
    have tags : ∀ record ∈ records, ∀ id ∈ tag? record, Criterion.isId id = true := by decide
    exact tags
  exact ⟨wellFormed, different, valid, by decide,
    compile_partitions "Demo" "T" [] wellFormed different valid⟩

end TestAudit.Report
