import TestAudit.Proofs.Run.Requirement

namespace TestAudit.Results

/-!
# Flaky tests

A record is marked flaky when the final attempt of its spec passed and an earlier one failed.
An earlier attempt that was skipped did not pass either, but on its own it makes no record
flaky.
-/

/-- What an attempt counts as. -/
def outcomeOf (attempt : Json.Value) : TestStatus :=
  statusOf (attempt.member "status")

/-- The final attempt of a spec passed, and an earlier one had an outcome of some kind. -/
def PassedAfter (kind : TestStatus → Prop) (spec : Json.Value) : Prop :=
  ∃ earlier final,
    attemptsOf spec = earlier ++ [final] ∧
      outcomeOf final = .passed ∧ ∃ attempt ∈ earlier, kind (outcomeOf attempt)

/-- Records are marked flaky just when their specs passed after an attempt of some kind. -/
def FlakyAfter
    (kind : TestStatus → Prop)
    (document : Json.Value)
    (found : List TestRecord) :
    Prop :=
  List.Forall₂ (fun (_, spec) record => record.flaky = true ↔ PassedAfter kind spec)
    ((documentSpecs document).filter fun (_, spec) => isAttempted spec) found

/-- Of the records of a document, those are marked flaky that passed after an attempt that did not. -/
def MarksLatePasses (document : Json.Value) : Prop :=
  ∀ found, records document = .ok found → FlakyAfter (· ≠ .passed) document found

/-- A spec passed in the end, was skipped before, and did not fail. -/
structure PassedAfterSkips (spec : Json.Value) : Prop where
  passedAfter : PassedAfter (· = .skipped) spec
  notFailed : ¬ PassedAfter (· = .failed) spec

/-! ## Specs -/

theorem passedAfter_iff
    {kind : TestStatus → Prop}
    {spec final : Json.Value}
    {earlier : List Json.Value}
    (areAttempts : attemptsOf spec = earlier ++ [final]) :
    PassedAfter kind spec ↔
      outcomeOf final = .passed ∧ ∃ attempt ∈ earlier, kind (outcomeOf attempt) := by
  constructor
  · rintro ⟨others, last, same, passed, before⟩
    obtain ⟨rfl, isFinal⟩ := List.append_inj' (areAttempts.symm.trans same) rfl
    cases isFinal
    exact ⟨passed, before⟩
  · rintro ⟨passed, before⟩
    exact ⟨earlier, final, areAttempts, passed, before⟩

/-- An outcome other than a pass is a failure or a skip. -/
theorem passedAfter_ne_passed_iff
    {spec : Json.Value} :
    PassedAfter (· ≠ .passed) spec ↔
      PassedAfter (· = .failed) spec ∨ PassedAfter (· = .skipped) spec := by
  have cases_of (status : TestStatus) :
      status ≠ .passed ↔ status = .failed ∨ status = .skipped := by
    cases status <;> decide
  simp only [PassedAfter, cases_of, and_or_left, exists_or]

theorem flaky_recordFor?_iff
    {suiteFile : Text}
    {spec : Json.Value}
    {record : TestRecord}
    (isRecord : recordFor? suiteFile spec = some record) :
    record.flaky = true ↔ PassedAfter (· = .failed) spec := by
  obtain ⟨final, isFinal, rfl⟩ := Option.map_eq_some_iff.mp isRecord
  obtain ⟨earlier, areAttempts⟩ := List.getLast?_eq_some_iff.mp isFinal
  change
    (decide (outcomeOf final = .passed) &&
      (attemptsOf spec).dropLast.any fun attempt => outcomeOf attempt = .failed) = true ↔ _
  rw [passedAfter_iff areAttempts, areAttempts, List.dropLast_concat, Bool.and_eq_true,
    List.any_eq_true]
  simp only [decide_eq_true_eq]

/-! ## Documents -/

/-- A record is marked flaky just when its spec passed after a failed attempt. -/
theorem flakyAfter_failed
    {document : Json.Value}
    {found : List TestRecord}
    (read : records document = .ok found) :
    FlakyAfter (· = .failed) document found := by
  rw [eq_recordsFor_of_records read]
  exact (forall₂_recordsFor (documentSpecs document)).imp fun _ _ => flaky_recordFor?_iff

/-- Records are marked as their specs are of one kind, so also of another kind that agrees. -/
theorem forall₂_marked_iff
    {α β : Type}
    {marked : β → Prop}
    {first second : α → Prop}
    {items : List α}
    {others : List β}
    (related : List.Forall₂ (fun item other => marked other ↔ first item) items others) :
    List.Forall₂ (fun item other => marked other ↔ second item) items others ↔
      ∀ item ∈ items, first item ↔ second item := by
  induction related with
  | nil => simp
  | cons here _ inductionHypothesis =>
      rw [List.forall₂_cons, inductionHypothesis, List.forall_mem_cons, here]

/-- Failures and passes after something else than a pass differ in skips only. -/
theorem passedAfter_agree_iff
    {spec : Json.Value} :
    (PassedAfter (· = .failed) spec ↔ PassedAfter (· ≠ .passed) spec) ↔
      ¬ PassedAfterSkips spec := by
  rw [passedAfter_ne_passed_iff]
  constructor
  · rintro agree ⟨skipped, notFailed⟩
    exact notFailed (agree.mpr (Or.inr skipped))
  · intro noSkips
    refine ⟨Or.inl, fun either => by_contra fun notFailed => ?_⟩
    exact noSkips ⟨either.resolve_left notFailed, notFailed⟩

theorem PassedAfterSkips.isAttempted
    {spec : Json.Value}
    (skips : PassedAfterSkips spec) :
    isAttempted spec = true := by
  obtain ⟨earlier, final, areAttempts, _⟩ := skips.passedAfter
  rw [Results.isAttempted, areAttempts]
  simp

/--
The records of a document are marked flaky just where a spec passed after a failed attempt.
So they are marked wherever one passed after an attempt that did not pass exactly when no
spec passed after attempts of which some were skipped and none failed.
-/
theorem marksLatePasses_iff
    (document : Json.Value) :
    (MarksLatePasses document ↔
      ∀ found, records document = .ok found →
        ∀ spec ∈ documentSpecs document, ¬ PassedAfterSkips spec.2) ∧
      ∀ found, records document = .ok found → FlakyAfter (· = .failed) document found := by
  refine ⟨?_, fun _ => flakyAfter_failed⟩
  refine forall_congr' fun found => forall_congr' fun read => ?_
  rw [FlakyAfter, forall₂_marked_iff (flakyAfter_failed read)]
  simp only [passedAfter_agree_iff, List.mem_filter, and_imp]
  constructor
  · exact fun noSkips spec member skips => noSkips spec member skips.isAttempted skips
  · exact fun noSkips spec member _ => noSkips spec member

/-- A test that was skipped in its first attempt and passed in its second one is not marked. -/
theorem not_marksLatePasses_of_skipped_attempt :
    ¬ MarksLatePasses (.object [("suites", .array [.object [("specs", .array [.object [
      ("tests", .array [.object [("results", .array [
        .object [("status", .string "skipped")],
        .object [("status", .string "passed")]])]])]])]])]) := by
  intro marks
  have marked := marks [{ title := [], status := .passed, attempts := 2 }] rfl
  obtain ⟨notMarked, _⟩ := List.forall₂_cons.mp marked
  have passedLate := notMarked.mpr
    ⟨[.object [("status", .string "skipped")]], .object [("status", .string "passed")], rfl, rfl,
      .object [("status", .string "skipped")], List.mem_cons_self, by decide⟩
  cases passedLate

end TestAudit.Results
