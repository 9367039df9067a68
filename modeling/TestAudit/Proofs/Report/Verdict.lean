import TestAudit.Proofs.Report.Partition

namespace TestAudit

/-!
# Verdicts on criteria

A verdict depends on how many tests failed and how many passed, and on the minimum of the
criterion. A row passes only if no test failed and enough of them passed, so a criterion
without an executed test never does, and the gaps of a report are the rows with too few
executed tests. The order of the tests does not matter, and of one more test its status
decides what it can change.
-/

/-! ## Counts of tests -/

theorem countStatus_concat
    (status : TestStatus)
    (tests : List TestRecord)
    (test : TestRecord) :
    countStatus status (tests ++ [test]) =
      countStatus status tests + if test.status = status then 1 else 0 := by
  simp [countStatus, List.countP_append, List.countP_singleton]

theorem countStatus_pos_iff
    {status : TestStatus}
    {tests : List TestRecord} :
    0 < countStatus status tests ↔ ∃ test ∈ tests, test.status = status := by
  simp [countStatus, List.countP_pos_iff]

theorem countStatus_eq_zero_iff
    {status : TestStatus}
    {tests : List TestRecord} :
    countStatus status tests = 0 ↔ ∀ test ∈ tests, test.status ≠ status := by
  simp [countStatus, List.countP_eq_zero]

/-- Each test runs in one of the two lanes. -/
theorem countLane_add
    (tests : List TestRecord) :
    countLane .api tests + countLane .e2e tests = tests.length := by
  induction tests with
  | nil => rfl
  | cons test others inductionHypothesis =>
      simp only [countLane, List.countP_cons, List.length_cons] at inductionHypothesis ⊢
      cases test.lane <;> simp <;> omega

/-- The number of tests that were not skipped. -/
def executed (tests : List TestRecord) : Nat :=
  tests.countP (·.status ≠ .skipped)

theorem executed_eq_add
    (tests : List TestRecord) :
    executed tests = countStatus .passed tests + countStatus .failed tests := by
  induction tests with
  | nil => rfl
  | cons test others inductionHypothesis =>
      simp only [executed, countStatus, List.countP_cons] at inductionHypothesis ⊢
      rw [inductionHypothesis]
      cases test.status <;> simp <;> omega

namespace Coverage

/-! ## The verdict -/

section StatusFor

variable {minimum passed failed : Nat}

theorem statusFor_eq_fail_iff :
    statusFor minimum passed failed = .fail ↔ 0 < failed := by
  unfold statusFor
  split
  next someFailed => simpa using someFailed
  next noneFailed => split <;> simpa using noneFailed

theorem statusFor_eq_pass_iff :
    statusFor minimum passed failed = .pass ↔ failed = 0 ∧ minimum ≤ passed := by
  unfold statusFor
  split
  next someFailed =>
    simp only [reduceCtorEq, false_iff]
    omega
  next noneFailed =>
    split <;> simp only [reduceCtorEq, false_iff, true_iff] <;> omega

theorem statusFor_eq_belowMinimum_iff :
    statusFor minimum passed failed = .belowMinimum ↔ failed = 0 ∧ passed < minimum := by
  unfold statusFor
  split
  next someFailed =>
    simp only [reduceCtorEq, false_iff]
    omega
  next noneFailed =>
    split <;> simp only [reduceCtorEq, false_iff, true_iff] <;> omega

end StatusFor

/-- What a coverage counts agrees with its tests. -/
structure CountsTests (coverage : Coverage) : Prop where
  passed : coverage.passed = countStatus .passed coverage.tests
  failed : coverage.failed = countStatus .failed coverage.tests
  total : coverage.total = coverage.passed + coverage.failed
  skipped : coverage.skipped = countStatus .skipped coverage.tests
  lanes :
    coverage.apiCount = countLane .api coverage.tests ∧
      coverage.e2eCount = countLane .e2e coverage.tests ∧
      coverage.apiCount + coverage.e2eCount = coverage.tests.length
  duration : coverage.duration = (coverage.tests.map (·.duration)).sum

/-- The verdict on a criterion, and whether it is a gap, follow from its executed tests. -/
structure Judges (coverage : Coverage) : Prop where
  fail :
    coverage.status = .fail ↔ ∃ test ∈ coverage.tests, test.status = .failed
  pass :
    coverage.status = .pass ↔
      (∀ test ∈ coverage.tests, test.status ≠ .failed) ∧
        coverage.criterion.minimum ≤ countStatus .passed coverage.tests
  belowMinimum :
    coverage.status = .belowMinimum ↔
      (∀ test ∈ coverage.tests, test.status ≠ .failed) ∧
        countStatus .passed coverage.tests < coverage.criterion.minimum
  gap : coverage.isGap = true ↔ executed coverage.tests < coverage.criterion.minimum

/-- Two coverages have the same figures and the same verdict. -/
structure SameFigures (coverage other : Coverage) : Prop where
  total : coverage.total = other.total
  passed : coverage.passed = other.passed
  failed : coverage.failed = other.failed
  skipped : coverage.skipped = other.skipped
  apiCount : coverage.apiCount = other.apiCount
  e2eCount : coverage.e2eCount = other.e2eCount
  duration : coverage.duration = other.duration
  status : coverage.status = other.status
  gap : coverage.isGap = other.isGap

variable {criterion : Criterion} {tests : List TestRecord} {images : List Image}

theorem countsTests_ofTests
    (criterion : Criterion)
    (tests : List TestRecord)
    (images : List Image) :
    (ofTests criterion tests images).CountsTests where
  passed := rfl
  failed := rfl
  total := rfl
  skipped := Nat.sub_eq_of_eq_add' (Report.countStatus_add tests).symm
  lanes := ⟨rfl, rfl, countLane_add tests⟩
  duration := Report.totalDuration_eq_sum tests

theorem isGap_ofTests_iff :
    (ofTests criterion tests images).isGap = true ↔ executed tests < criterion.minimum := by
  rw [executed_eq_add]
  exact decide_eq_true_iff

theorem judges_ofTests
    (criterion : Criterion)
    (tests : List TestRecord)
    (images : List Image) :
    (ofTests criterion tests images).Judges where
  fail := statusFor_eq_fail_iff.trans countStatus_pos_iff
  pass := statusFor_eq_pass_iff.trans (and_congr_left' countStatus_eq_zero_iff)
  belowMinimum := statusFor_eq_belowMinimum_iff.trans (and_congr_left' countStatus_eq_zero_iff)
  gap := isGap_ofTests_iff

/-- Without executed tests, no criterion passes that asks for one. -/
theorem status_ne_pass_of_skipped
    (asks : 1 ≤ criterion.minimum)
    (allSkipped : ∀ test ∈ tests, test.status = .skipped) :
    (ofTests criterion tests images).status ≠ .pass := by
  intro passes
  have enough : criterion.minimum ≤ countStatus .passed tests :=
    (statusFor_eq_pass_iff.mp passes).2
  have nonePassed : countStatus .passed tests = 0 :=
    countStatus_eq_zero_iff.mpr fun test member => by simp [allSkipped test member]
  omega

/-! ## Gaps -/

theorem isGap_of_pass
    (passes : (ofTests criterion tests images).status = .pass) :
    (ofTests criterion tests images).isGap = false := by
  obtain ⟨_, enough⟩ := statusFor_eq_pass_iff.mp passes
  rw [Bool.eq_false_iff, ne_eq, isGap_ofTests_iff, executed_eq_add]
  omega

theorem isGap_of_belowMinimum
    (isBelow : (ofTests criterion tests images).status = .belowMinimum) :
    (ofTests criterion tests images).isGap = true := by
  obtain ⟨noneFailed, tooFew⟩ := statusFor_eq_belowMinimum_iff.mp isBelow
  rw [isGap_ofTests_iff, executed_eq_add]
  omega

/-- Every row of a compiled report is the coverage of a criterion by its tests. -/
theorem exists_ofTests_of_mem_coverage
    {projectName timestamp : Text}
    {records : List TestRecord}
    {catalog : Catalog}
    {allImages : List Image}
    {report : Report}
    {row : Coverage}
    (compiled :
      (Report.compile projectName timestamp records catalog allImages).value = .ok report)
    (isRow : row ∈ report.coverage) :
    ∃ criterion tests images, row = ofTests criterion tests images := by
  rw [Report.compile, Logged.value_bind] at compiled
  split at compiled
  next => cases compiled
  next criteria _ =>
    obtain rfl := Except.ok.inj compiled
    obtain ⟨criterion, _, rfl⟩ := List.mem_map.mp isRow
    exact ⟨_, _, _, rfl⟩

/-- A row that passes is no gap of its report, and one below its minimum is. -/
theorem mem_gaps_of_status
    {projectName timestamp : Text}
    {records : List TestRecord}
    {catalog : Catalog}
    {allImages : List Image}
    {report : Report}
    (compiled :
      (Report.compile projectName timestamp records catalog allImages).value = .ok report) :
    ∀ row ∈ report.coverage,
      (row.status = .pass → row ∉ report.gaps) ∧
        (row.status = .belowMinimum → row ∈ report.gaps) := by
  intro row isRow
  obtain ⟨criterion, tests, images, rfl⟩ := exists_ofTests_of_mem_coverage compiled isRow
  constructor
  · intro passes isGap
    have noGap := isGap_of_pass passes
    rw [(List.mem_filter.mp isGap).2] at noGap
    cases noGap
  · intro isBelow
    exact List.mem_filter.mpr ⟨isRow, isGap_of_belowMinimum isBelow⟩

/-! ## Other tests -/

theorem sameFigures_of_perm
    {other : List TestRecord}
    (permuted : tests.Perm other) :
    (ofTests criterion tests images).SameFigures (ofTests criterion other images) := by
  have statuses (status : TestStatus) : countStatus status tests = countStatus status other :=
    permuted.countP_eq _
  have lanes (lane : Lane) : countLane lane tests = countLane lane other :=
    permuted.countP_eq _
  have durations : totalDuration tests = totalDuration other := by
    rw [Report.totalDuration_eq_sum, Report.totalDuration_eq_sum]
    exact (permuted.map _).sum_eq
  have gaps :
      (ofTests criterion tests images).isGap = (ofTests criterion other images).isGap := by
    rw [Bool.eq_iff_iff, isGap_ofTests_iff, isGap_ofTests_iff, executed, permuted.countP_eq,
      executed]
  refine ⟨?_, ?_, ?_, ?_, ?_, ?_, ?_, ?_, gaps⟩ <;>
    simp only [ofTests, statuses, lanes, durations, permuted.length_eq]

/-- What one more test can change of a verdict. -/
structure Extends (coverage : Coverage) (test : TestRecord) (extended : Coverage) : Prop where
  passed :
    test.status = .passed →
      (coverage.status = .pass → extended.status = .pass) ∧
        (coverage.isGap = false → extended.isGap = false)
  skipped :
    test.status = .skipped →
      extended.status = coverage.status ∧ extended.isGap = coverage.isGap
  failed : test.status = .failed → extended.status = .fail

theorem extends_concat
    (criterion : Criterion)
    (tests : List TestRecord)
    (images : List Image)
    (test : TestRecord) :
    (ofTests criterion tests images).Extends test
      (ofTests criterion (tests ++ [test]) images) where
  passed := by
    intro isPassed
    constructor
    · intro passes
      obtain ⟨noneFailed, enough⟩ := statusFor_eq_pass_iff.mp passes
      refine statusFor_eq_pass_iff.mpr ?_
      simp only [countStatus_concat, isPassed, reduceCtorEq, ↓reduceIte]
      omega
    · intro noGap
      rw [Bool.eq_false_iff, ne_eq, isGap_ofTests_iff, executed_eq_add] at noGap ⊢
      simp only [countStatus_concat, isPassed, reduceCtorEq, ↓reduceIte]
      omega
  skipped := by
    intro isSkipped
    rw [Bool.eq_iff_iff, isGap_ofTests_iff, isGap_ofTests_iff, executed_eq_add, executed_eq_add]
    simp [ofTests, countStatus_concat, isSkipped]
  failed := by
    intro isFailed
    refine statusFor_eq_fail_iff.mpr ?_
    simp [countStatus_concat, isFailed]

/-! ## Verdicts -/

/--
The figures of a criterion count its tests, and its verdict is what they and its minimum
say. In every compiled report, what passes is no gap and what is below its minimum is
one. The order of the tests changes nothing, and one more test can only make a verdict
better if it passed, changes nothing if it was skipped, and decides it if it failed.
-/
theorem ofTests_judged
    (criterion : Criterion)
    (asks : 1 ≤ criterion.minimum)
    (tests : List TestRecord)
    (images : List Image) :
    let coverage := ofTests criterion tests images
    coverage.CountsTests ∧
      coverage.Judges ∧
      ((∀ test ∈ tests, test.status = .skipped) → coverage.status ≠ .pass) ∧
      (∀ projectName timestamp records catalog allImages report,
        (Report.compile projectName timestamp records catalog allImages).value = .ok report →
        ∀ row ∈ report.coverage,
          (row.status = .pass → row ∉ report.gaps) ∧
            (row.status = .belowMinimum → row ∈ report.gaps)) ∧
      (∀ other, tests.Perm other → coverage.SameFigures (ofTests criterion other images)) ∧
      ∀ test, coverage.Extends test (ofTests criterion (tests ++ [test]) images) :=
  ⟨countsTests_ofTests criterion tests images,
    judges_ofTests criterion tests images,
    status_ne_pass_of_skipped asks,
    fun _ _ _ _ _ _ => mem_gaps_of_status,
    fun _ => sameFigures_of_perm,
    extends_concat criterion tests images⟩

/-- One passed test of two that are asked for is below the minimum, and a second one is enough. -/
theorem ofTests_judged_of_two :
    let criterion : Criterion := {
      id := "AC-1", description := "Loads", minimum := 2, provenance := .config
    }
    let tests : List TestRecord := [
      { title := "AC-1: a", status := .passed, duration := 30, project := "api" },
      { title := "AC-1: b", status := .skipped }]
    let extended := tests ++ [{ title := "AC-1: c", status := .passed }]
    1 ≤ criterion.minimum ∧
      (ofTests criterion tests []).Judges ∧
      (ofTests criterion tests []).status = .belowMinimum ∧
      (ofTests criterion extended []).status = .pass ∧
      (ofTests criterion tests []).Extends { title := "AC-1: c", status := .passed }
        (ofTests criterion extended []) := by
  intro criterion tests extended
  have judged := ofTests_judged criterion (by decide) tests []
  exact ⟨by decide, judged.2.1, by decide, by decide, judged.2.2.2.2.2 _⟩

end Coverage

end TestAudit
