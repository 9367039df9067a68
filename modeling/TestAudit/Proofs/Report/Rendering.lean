import TestAudit.Proofs.Outcome
import TestAudit.Proofs.Run.Duration
import TestAudit.Report.Markup

namespace TestAudit.Report

/-!
# Reports that can be rendered

Only durations and the numbers that documents gave, lines and minimums, can fail to be
shown. A document is rendered just when those that it shows can be shown.
-/

theorem exists_numeral_iff
    {number : Int} :
    (∃ text, numeral number = .ok text) ↔ Duration.HasNumeral number := by
  rw [← Duration.exceedsDigitLimit_eq_false_iff, numeral]
  cases Duration.exceedsDigitLimit number <;> simp

theorem exists_inOrder_iff
    {α : Type}
    {piece : α → Except Duration.Fault Text}
    {items : List α} :
    (∃ text, inOrder piece items = .ok text) ↔
      ∀ item ∈ items, ∃ text, piece item = .ok text := by
  induction items with
  | nil => simp [inOrder]
  | cons item others inductionHypothesis =>
      rw [List.forall_mem_cons, ← inductionHypothesis, inOrder,
        Outcome.exists_bind_bind_pure_iff]

/-! ## Tests -/

/-- The duration of a test and its line can be shown. -/
def CardShowable (test : TestRecord) : Prop :=
  Duration.Showable test.duration ∧ ∀ line, test.line = some line → Duration.HasNumeral line

instance CardShowable.decidable (test : TestRecord) : Decidable (CardShowable test) :=
  inferInstanceAs (Decidable (_ ∧ ∀ line ∈ test.line, Duration.HasNumeral line))

theorem exists_testPlace_iff
    {test : TestRecord} :
    (∃ text, testPlace test = .ok text) ↔
      ∀ line, test.line = some line → Duration.HasNumeral line := by
  unfold testPlace
  cases test.line with
  | none => simp
  | some line =>
      rw [Outcome.exists_bind_pure_iff, exists_numeral_iff]
      simp

theorem exists_testCard_iff
    {test : TestRecord} :
    (∃ text, testCard test = .ok text) ↔ CardShowable test := by
  rw [CardShowable, ← Duration.exists_show?_iff, ← exists_testPlace_iff, testCard,
    Outcome.exists_bind_bind_pure_iff]

/-! ## Rows -/

/-- The duration of a row and the cards of its tests can be shown. -/
def SectionShowable (coverage : Coverage) : Prop :=
  Duration.Showable coverage.duration ∧ ∀ test ∈ coverage.tests, CardShowable test

instance SectionShowable.decidable (coverage : Coverage) : Decidable (SectionShowable coverage) :=
  inferInstanceAs (Decidable (_ ∧ _))

theorem exists_detailSection_iff
    {coverage : Coverage} :
    (∃ text, detailSection coverage = .ok text) ↔ SectionShowable coverage := by
  have cards :
      (∃ text, inOrder testCard coverage.tests = .ok text) ↔
        ∀ test ∈ coverage.tests, CardShowable test := by
    simp only [exists_inOrder_iff, exists_testCard_iff]
  rw [SectionShowable, ← Duration.exists_show?_iff, ← cards, detailSection,
    Outcome.exists_bind_bind_pure_iff]

theorem exists_detailSections_iff
    {report : Report} :
    (∃ text, detailSections report = .ok text) ↔
      ∀ row ∈ report.coverage, row.tests ≠ [] → SectionShowable row := by
  rw [detailSections, Outcome.exists_bind_pure_iff, exists_inOrder_iff]
  simp [exists_detailSection_iff]

theorem exists_matrixRows_iff
    {report : Report} :
    (∃ text, matrixRows report = .ok text) ↔
      ∀ row ∈ report.coverage, Duration.HasNumeral row.criterion.minimum := by
  rw [matrixRows, Outcome.exists_bind_pure_iff, exists_inOrder_iff]
  simp only [matrixRow, Outcome.exists_bind_pure_iff, exists_numeral_iff]

theorem exists_gapMarkups
    {report : Report}
    (numerals : ∀ row ∈ report.coverage, Duration.HasNumeral row.criterion.minimum) :
    ∃ text, gapMarkups report = .ok text := by
  unfold gapMarkups
  split
  · exact ⟨_, rfl⟩
  · rw [Outcome.exists_bind_pure_iff, exists_inOrder_iff]
    intro row isGap
    rw [gapMarkup, Outcome.exists_bind_pure_iff, exists_numeral_iff]
    exact numerals row (List.mem_of_mem_filter isGap)

/-! ## Documents -/

/-- The durations and the numbers that the document of a report shows can be shown. -/
structure Renderable (report : Report) : Prop where
  duration : Duration.Showable report.duration
  minimums : ∀ row ∈ report.coverage, Duration.HasNumeral row.criterion.minimum
  sections : ∀ row ∈ report.coverage, row.tests ≠ [] → SectionShowable row

instance Renderable.decidable (report : Report) : Decidable (Renderable report) :=
  decidable_of_iff
    (Duration.Showable report.duration ∧
      (∀ row ∈ report.coverage, Duration.HasNumeral row.criterion.minimum) ∧
      ∀ row ∈ report.coverage, row.tests ≠ [] → SectionShowable row)
    ⟨fun ⟨duration, minimums, sections⟩ => { duration, minimums, sections },
      fun renderable => ⟨renderable.duration, renderable.minimums, renderable.sections⟩⟩

theorem exists_fragments_iff
    {report : Report} :
    (∃ values, fragments report = .ok values) ↔ Renderable report := by
  simp only [fragments, Outcome.exists_bind_iff]
  constructor
  · rintro ⟨duration, shown, rows, matrix, details, sections, _⟩
    exact {
      duration := Duration.exists_show?_iff.mp ⟨duration, shown⟩
      minimums := exists_matrixRows_iff.mp ⟨rows, matrix⟩
      sections := exists_detailSections_iff.mp ⟨details, sections⟩
    }
  · intro renderable
    obtain ⟨duration, shown⟩ := Duration.exists_show?_iff.mpr renderable.duration
    obtain ⟨rows, matrix⟩ := exists_matrixRows_iff.mpr renderable.minimums
    obtain ⟨details, sections⟩ := exists_detailSections_iff.mpr renderable.sections
    obtain ⟨gaps, warnings⟩ := exists_gapMarkups renderable.minimums
    exact ⟨duration, shown, rows, matrix, details, sections, gaps, warnings, _, rfl⟩

/-- A report is rendered in any template just when all that it shows can be shown. -/
theorem exists_document_iff
    {report : Report}
    {template : Text} :
    (∃ text, document report template = .ok text) ↔ Renderable report := by
  rw [document, Outcome.exists_bind_pure_iff, exists_fragments_iff]

end TestAudit.Report
