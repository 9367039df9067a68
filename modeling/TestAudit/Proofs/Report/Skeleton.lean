import Mathlib.Data.List.Forall2
import Mathlib.Tactic.SplitIfs
import TestAudit.Proofs.Report.Rendering

namespace TestAudit

/-!
# Markup that no text can change

The skeleton of a text is what is left of it when only the characters that open and
close elements and attribute values stay. User texts are escaped, so their skeletons
are empty. The skeletons of all that a report shows therefore depend only on its shape:
on the numbers in it, the lengths of its lists, and which outputs are blank.
-/

namespace Text

/-- The characters that open and close elements and attribute values. -/
def isMarkupMark (c : Char) : Bool :=
  c == '<' || c == '>' || c == '\x22' || c == '\x27'

/-- The text without all characters but those that open and close markup. -/
def skeleton (text : Text) : Text :=
  text.filter isMarkupMark

@[simp] theorem skeleton_append
    (first second : Text) :
    skeleton (first ++ second) = skeleton first ++ skeleton second :=
  List.filter_append first second

@[simp] theorem skeleton_flatMap
    {α : Type}
    (items : List α)
    (piece : α → Text) :
    skeleton (items.flatMap piece) = items.flatMap fun item => skeleton (piece item) :=
  List.filter_flatMap

/-- Entities that hold no markup themselves leave none of an escaped text. -/
theorem skeleton_escapeMarkup
    {quotes : QuoteEntities}
    (single : skeleton quotes.single = [])
    (double : skeleton quotes.double = [])
    (text : Text) :
    skeleton (text.escapeMarkup quotes) = [] := by
  rw [escapeMarkup, skeleton_flatMap, List.flatMap_eq_nil_iff]
  intro c _
  unfold entityFor
  split_ifs with isAmpersand isOpening isClosing isSingle isDouble
  · rfl
  · rfl
  · rfl
  · exact single
  · exact double
  · simp [skeleton, isMarkupMark, isOpening, isClosing, isSingle, isDouble]

end Text

/-! ## Shapes -/

/-- Two tests are shown in one way, apart from their texts. -/
structure TestRecord.SameShape (first second : TestRecord) : Prop where
  status : first.status = second.status
  lane : first.lane = second.lane
  flaky : first.flaky = second.flaky
  attempts : first.attempts = second.attempts
  line : first.line = second.line
  duration : first.duration = second.duration
  errors : first.errors.length = second.errors.length
  output : Text.trim first.stdout = [] ↔ Text.trim second.stdout = []

/-- Two rows have the same figures, and tests and images of the same shape. -/
structure Coverage.SameShape (first second : Coverage) : Prop where
  minimum : first.criterion.minimum = second.criterion.minimum
  total : first.total = second.total
  passed : first.passed = second.passed
  failed : first.failed = second.failed
  skipped : first.skipped = second.skipped
  apiCount : first.apiCount = second.apiCount
  e2eCount : first.e2eCount = second.e2eCount
  duration : first.duration = second.duration
  status : first.status = second.status
  tests : List.Forall₂ TestRecord.SameShape first.tests second.tests
  images : first.images.length = second.images.length

namespace Report

/-- Two reports have the same figures, and rows of the same shape. -/
structure SameShape (first second : Report) : Prop where
  total : first.total = second.total
  passed : first.passed = second.passed
  failed : first.failed = second.failed
  skipped : first.skipped = second.skipped
  duration : first.duration = second.duration
  imageCount : first.imageCount = second.imageCount
  coverage : List.Forall₂ Coverage.SameShape first.coverage second.coverage
  gallery : first.gallery.length = second.gallery.length

/-- The skeletons of what stands for the placeholders, unless something cannot be shown. -/
def skeletons (report : Report) : Except Duration.Fault (Placeholder → Text) :=
  (fragments report).map fun values placeholder => (values placeholder).skeleton

/-! ## Pieces of markup -/

@[simp] theorem skeleton_escaped
    (text : Text) :
    (escaped text).skeleton = [] :=
  Text.skeleton_escapeMarkup rfl rfl text

theorem skeleton_heading
    (text : Text) :
    (text.escapeMarkup headingQuotes).skeleton = [] :=
  Text.skeleton_escapeMarkup rfl rfl text

/-- Line feeds are no markup, so a skeleton does not tell lines apart. -/
@[simp] theorem skeleton_markupLines
    (lines : List Text) :
    (markupLines lines).skeleton = (lines.map Text.skeleton).flatten := by
  rw [markupLines, Text.skeleton_flatMap, List.flatMap_def]
  congr 2
  funext line
  rw [Text.skeleton_append]
  exact List.append_nil _

theorem skeleton_imageMarkup
    (first second : Image) :
    (imageMarkup first).skeleton = (imageMarkup second).skeleton := by
  simp only [imageMarkup, skeleton_markupLines, List.map_cons, Text.skeleton_append,
    skeleton_escaped]

/-- Of images only their number can be seen in a skeleton. -/
theorem skeleton_imageGrid
    {first second : List Image}
    (same : first.length = second.length) :
    (imageGrid first).skeleton = (imageGrid second).skeleton := by
  have items :
      (first.flatMap fun image => (imageMarkup image).skeleton) =
        second.flatMap fun image => (imageMarkup image).skeleton := by
    induction first generalizing second with
    | nil =>
        cases second with
        | nil => rfl
        | cons => cases same
    | cons image others inductionHypothesis =>
        cases second with
        | nil => cases same
        | cons other images =>
            rw [List.flatMap_cons, List.flatMap_cons, skeleton_imageMarkup image other,
              inductionHypothesis (Nat.succ.inj same)]
  simp only [imageGrid, Text.skeleton_append, Text.skeleton_flatMap, items]

/-! ## Outcomes -/

/-- Two pieces of markup have one skeleton, or neither can be shown for the same reason. -/
inductive Alike : Except Duration.Fault Text → Except Duration.Fault Text → Prop where
  | shown {first second : Text} :
      first.skeleton = second.skeleton →
      Alike (.ok first) (.ok second)
  | hidden {fault : Duration.Fault} :
      Alike (.error fault) (.error fault)

namespace Alike

theorem refl
    (outcome : Except Duration.Fault Text) :
    Alike outcome outcome := by
  cases outcome with
  | ok text => exact .shown rfl
  | error fault => exact .hidden

/-- Pieces that go into markup in the same way make markup of one skeleton. -/
theorem bind
    {first second : Except Duration.Fault Text}
    {next others : Text → Except Duration.Fault Text}
    (alike : Alike first second)
    (rest :
      ∀ text other, text.skeleton = other.skeleton → Alike (next text) (others other)) :
    Alike (first >>= next) (second >>= others) := by
  cases alike with
  | shown same => exact rest _ _ same
  | hidden => exact .hidden

theorem inOrder
    {α β : Type}
    {related : α → β → Prop}
    {piece : α → Except Duration.Fault Text}
    {other : β → Except Duration.Fault Text}
    {first : List α}
    {second : List β}
    (items : List.Forall₂ related first second)
    (each : ∀ {item image}, related item image → Alike (piece item) (other image)) :
    Alike (Report.inOrder piece first) (Report.inOrder other second) := by
  induction items with
  | nil => exact .refl _
  | cons isRelated _ inductionHypothesis =>
      refine (each isRelated).bind fun text image same => ?_
      refine inductionHypothesis.bind fun behind others sameBehind => .shown ?_
      rw [Text.skeleton_append, Text.skeleton_append, same, sameBehind]

end Alike

/-! ## Tests -/

theorem skeleton_logLines
    {first second : TestRecord}
    (shape : first.SameShape second) :
    (logLines first).map Text.skeleton = (logLines second).map Text.skeleton := by
  have output : decide (Text.trim first.stdout ≠ []) = decide (Text.trim second.stdout ≠ []) :=
    decide_eq_decide.mpr (not_congr shape.output)
  simp only [logLines, lineIf, output, List.map_append, List.map_map, Function.comp_def,
    Text.skeleton_append, skeleton_escaped, List.map_const', shape.errors]
  congr 1
  split
  · simp only [List.map_cons, List.map_nil, Text.skeleton_append, skeleton_escaped]
  · rfl

theorem skeleton_cardMarkup
    {first second : TestRecord}
    {duration otherDuration place otherPlace : Text}
    (shape : first.SameShape second)
    (sameDuration : duration.skeleton = otherDuration.skeleton)
    (samePlace : place.skeleton = otherPlace.skeleton) :
    (cardMarkup first duration place).skeleton =
      (cardMarkup second otherDuration otherPlace).skeleton := by
  simp only [cardMarkup, attemptsText, skeleton_markupLines, List.map_append, List.map_cons,
    List.map_nil, Text.skeleton_append, skeleton_escaped, skeleton_logLines shape, shape.status,
    shape.lane, shape.flaky, shape.attempts, sameDuration, samePlace]

theorem alike_testPlace
    {first second : TestRecord}
    (shape : first.SameShape second) :
    Alike (testPlace first) (testPlace second) := by
  have colon (number : Text) : Text.skeleton (':' :: number) = number.skeleton := rfl
  unfold testPlace
  rw [shape.line]
  cases second.line with
  | none => exact .shown (by simp only [skeleton_escaped])
  | some line =>
      refine (Alike.refl (numeral line)).bind fun text other same => .shown ?_
      simp only [Text.skeleton_append, skeleton_escaped, colon, same]

theorem alike_testCard
    {first second : TestRecord}
    (shape : first.SameShape second) :
    Alike (testCard first) (testCard second) := by
  unfold testCard
  rw [shape.duration]
  refine (Alike.refl _).bind fun duration otherDuration sameDuration => ?_
  refine (alike_testPlace shape).bind fun place otherPlace samePlace => .shown ?_
  exact skeleton_cardMarkup shape sameDuration samePlace

/-! ## Rows -/

theorem alike_matrixRow
    {first second : Coverage}
    (shape : first.SameShape second) :
    Alike (matrixRow first) (matrixRow second) := by
  unfold matrixRow
  rw [shape.minimum]
  refine (Alike.refl _).bind fun minimum other same => .shown ?_
  simp only [skeleton_markupLines, List.map_cons, Text.skeleton_append, skeleton_escaped,
    shape.total, shape.passed, shape.failed, shape.status, same]

theorem alike_gapMarkup
    {first second : Coverage}
    (shape : first.SameShape second) :
    Alike (gapMarkup first) (gapMarkup second) := by
  unfold gapMarkup
  rw [shape.minimum]
  refine (Alike.refl _).bind fun minimum other same => .shown ?_
  simp only [skeleton_markupLines, List.map_cons, Text.skeleton_append, skeleton_escaped,
    shape.total, same]

theorem skeleton_sectionHeading
    {first second : Coverage}
    {duration other : Text}
    (shape : first.SameShape second)
    (same : duration.skeleton = other.skeleton) :
    (sectionHeading first duration).map Text.skeleton =
      (sectionHeading second other).map Text.skeleton := by
  have images : decide (first.images ≠ []) = decide (second.images ≠ []) := by
    simp only [ne_eq, ← List.length_eq_zero_iff, shape.images]
  simp only [sectionHeading, List.map_append, List.map_cons, List.map_nil, Text.skeleton_append,
    skeleton_escaped, images, shape.failed, shape.status, shape.tests.length_eq, shape.apiCount,
    shape.e2eCount, shape.images, same]

theorem skeleton_sectionImages
    {first second : Coverage}
    (shape : first.SameShape second) :
    (sectionImages first).skeleton = (sectionImages second).skeleton := by
  unfold sectionImages
  simp only [← List.length_eq_zero_iff, shape.images]
  split
  · rfl
  · rw [Text.skeleton_append, Text.skeleton_append, skeleton_imageGrid shape.images]

theorem alike_detailSection
    {first second : Coverage}
    (shape : first.SameShape second) :
    Alike (detailSection first) (detailSection second) := by
  unfold detailSection
  rw [shape.duration]
  refine (Alike.refl _).bind fun duration other sameDuration => ?_
  refine (Alike.inOrder shape.tests alike_testCard).bind
    fun cards others sameCards => .shown ?_
  simp only [Text.skeleton_append, skeleton_markupLines,
    skeleton_sectionHeading shape sameDuration, skeleton_sectionImages shape, sameCards]

/-! ## Reports -/

namespace SameShape

variable {first second : Report}

theorem gaps
    (shape : SameShape first second) :
    List.Forall₂ Coverage.SameShape first.gaps second.gaps := by
  refine List.rel_filter ?_ shape.coverage
  intro row other rowShape
  simp only [Coverage.isGap, rowShape.total, rowShape.minimum]

theorem tested
    (shape : SameShape first second) :
    List.Forall₂ Coverage.SameShape
      (first.coverage.filter (·.tests ≠ [])) (second.coverage.filter (·.tests ≠ [])) := by
  refine List.rel_filter ?_ shape.coverage
  intro row other rowShape
  simp only [ne_eq, ← List.length_eq_zero_iff, rowShape.tests.length_eq]

theorem coveredCount
    (shape : SameShape first second) :
    first.coveredCount = second.coveredCount := by
  simp only [Report.coveredCount, List.countP_eq_length_filter]
  exact shape.tested.length_eq

theorem gaps_eq_nil_iff
    (shape : SameShape first second) :
    first.gaps = [] ↔ second.gaps = [] := by
  rw [← List.length_eq_zero_iff, ← List.length_eq_zero_iff, shape.gaps.length_eq]

theorem alike_matrixRows
    (shape : SameShape first second) :
    Alike (matrixRows first) (matrixRows second) := by
  unfold matrixRows
  refine (Alike.inOrder shape.coverage alike_matrixRow).bind
    fun rows others same => .shown ?_
  rw [Text.skeleton_append, Text.skeleton_append, same]

theorem skeleton_gallerySection
    (shape : SameShape first second) :
    (gallerySection first.gallery).skeleton = (gallerySection second.gallery).skeleton := by
  unfold gallerySection
  simp only [← List.length_eq_zero_iff, shape.gallery]
  split
  · rfl
  · simp only [Text.skeleton_append, skeleton_imageGrid shape.gallery]

theorem alike_detailSections
    (shape : SameShape first second) :
    Alike (detailSections first) (detailSections second) := by
  unfold detailSections
  refine (Alike.inOrder shape.tested alike_detailSection).bind
    fun sections others same => .shown ?_
  simp only [Text.skeleton_append, same, shape.skeleton_gallerySection]

theorem alike_gapMarkups
    (shape : SameShape first second) :
    Alike (gapMarkups first) (gapMarkups second) := by
  unfold gapMarkups
  simp only [shape.gaps_eq_nil_iff]
  split
  · exact .refl _
  · refine (Alike.inOrder shape.gaps alike_gapMarkup).bind
      fun warnings others same => .shown ?_
    rw [Text.skeleton_append, Text.skeleton_append, same]

/-- The review of a report shows no user text. -/
theorem reviewSummary_eq
    (shape : SameShape first second) :
    reviewSummary first = reviewSummary second := by
  simp only [reviewSummary, shape.total, shape.passed, shape.coveredCount,
    shape.coverage.length_eq, shape.gaps_eq_nil_iff]

end SameShape

/--
What reports of the same shape show has the same skeletons, placeholder by placeholder:
no user text opens or closes an element or an attribute value.
-/
theorem skeletons_eq_of_sameShape
    {first second : Report}
    (shape : SameShape first second) :
    skeletons first = skeletons second := by
  unfold skeletons fragments
  rw [shape.duration]
  cases Duration.show? second.duration with
  | error fault => rfl
  | ok duration =>
      have rows := shape.alike_matrixRows
      have details := shape.alike_detailSections
      have gaps := shape.alike_gapMarkups
      generalize matrixRows first = firstRows, matrixRows second = secondRows,
        detailSections first = firstDetails, detailSections second = secondDetails,
        gapMarkups first = firstGaps, gapMarkups second = secondGaps at rows details gaps
      cases rows with
      | hidden => rfl
      | shown sameRows =>
          cases details with
          | hidden => rfl
          | shown sameDetails =>
              cases gaps with
              | hidden => rfl
              | shown sameGaps =>
                  refine congrArg Except.ok (funext fun placeholder => ?_)
                  cases placeholder with
                  | projectName => simp only [skeleton_heading]
                  | timestamp => simp only [skeleton_heading]
                  | duration => rfl
                  | total => simp only [shape.total]
                  | passed => simp only [shape.passed]
                  | failed => simp only [shape.failed]
                  | skipped => simp only [shape.skipped]
                  | matrixRows => exact sameRows
                  | detailSections => exact sameDetails
                  | gaps => exact sameGaps
                  | reviewSummary => simp only [shape.reviewSummary_eq]
                  | securityRows => rfl

/-- A report with a row, a test and two images, all of whose texts are one. -/
def uniform (text : Text) : Report :=
  let image : Image := { filename := text, criterion := none, caption := text, dataUri := text }
  let test : TestRecord := {
    title := text, file := text, line := some 7, status := .failed, duration := 1500
    stdout := text, errors := [text, text], attempts := 2
  }
  let criterion : Criterion := {
    id := text, description := text, minimum := 2, provenance := .config
  }
  {
    projectName := text
    timestamp := text
    total := 1
    failed := 1
    duration := 1500
    coverage := [.ofTests criterion [test] [image]]
    gallery := [image]
    imageCount := 2
  }

/-- A text that closes an attribute value and opens a script changes nothing, wherever it stands. -/
theorem skeletons_eq_of_script :
    let hostile : Text := "\"><script>alert('x')</script>"
    SameShape (uniform "x") (uniform hostile) ∧
      skeletons (uniform "x") = skeletons (uniform hostile) ∧
      ∃ values, fragments (uniform hostile) = .ok values := by
  intro hostile
  have blank : Text.trim "x" = [] ↔ Text.trim hostile = [] := by decide
  have test :
      List.Forall₂ Coverage.SameShape (uniform "x").coverage (uniform hostile).coverage :=
    .cons ⟨rfl, rfl, rfl, rfl, rfl, rfl, rfl, rfl, rfl,
      .cons ⟨rfl, rfl, rfl, rfl, rfl, rfl, rfl, blank⟩ .nil, rfl⟩ .nil
  have shape : SameShape (uniform "x") (uniform hostile) :=
    ⟨rfl, rfl, rfl, rfl, rfl, rfl, test, rfl⟩
  have renderable : Renderable (uniform hostile) := by decide +kernel
  exact ⟨shape, skeletons_eq_of_sameShape shape, exists_fragments_iff.mpr renderable⟩

end Report

end TestAudit
