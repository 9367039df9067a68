import TestAudit.Proofs.Report.Details
import TestAudit.Proofs.Report.Placement
import TestAudit.Proofs.Report.Rendering

namespace TestAudit.Report

/-!
# Evidence from records to the document

A compiled report keeps every image, in a row or in the gallery, and its details show
each of them once, and once each test that a row has. Rows without tests are left out
of the details, but such rows have no images.
-/

variable {criteria : List Criterion} {records : List TestRecord} {images : List Image}

/-- An image is in a row for one of the criteria just when it has a place. -/
theorem Covering.exists_row_iff
    (covering : Covering criteria records)
    {image : Image}
    (member : image ∈ images) :
    (∃ criterion ∈ criteria, image ∈ (row records images criterion).images) ↔
      ∃ id, place? records image = some id := by
  have all := (covering.perm_images images).mem_iff (a := image)
  rw [List.mem_flatMap, List.mem_filter, Option.isSome_iff_exists] at all
  simpa [member] using all

/-- An image is in the row of its place only. -/
theorem Covering.row_unique
    (covering : Covering criteria records)
    {image : Image}
    {first second : Criterion}
    (isFirst : first ∈ criteria)
    (isSecond : second ∈ criteria)
    (inFirst : image ∈ (row records images first).images)
    (inSecond : image ∈ (row records images second).images) :
    first = second := by
  rw [covering.row_images isFirst, List.mem_filter] at inFirst
  rw [covering.row_images isSecond, List.mem_filter] at inSecond
  have sameId : some first.id = some second.id :=
    (of_decide_eq_true inFirst.2).symm.trans (of_decide_eq_true inSecond.2)
  exact List.inj_on_of_nodup_map covering.different isFirst isSecond (Option.some.inj sameId)

/-- A row without tests has no images. -/
theorem row_images_of_no_tests
    {criterion : Criterion}
    (noTests : (row records images criterion).tests = []) :
    (row records images criterion).images = [] := by
  rw [row_tests] at noTests
  change imagesOf criterion.id (testsOf criterion.id records) images = []
  rw [imagesOf, if_pos noTests]

/-- A sum over the rows with tests is one over all rows when rows without tests add nothing. -/
theorem sum_rows_with_tests
    {rows : List Coverage}
    {count : Coverage → Nat}
    (nothing : ∀ row ∈ rows, row.tests = [] → count row = 0) :
    ((rows.filter (·.tests ≠ [])).map count).sum = (rows.map count).sum := by
  induction rows with
  | nil => rfl
  | cons row others inductionHypothesis =>
      rw [List.forall_mem_cons] at nothing
      have behind := inductionHypothesis nothing.2
      by_cases noTests : row.tests = []
      · rw [List.filter_cons_of_neg (by simp [noTests]), List.map_cons, List.sum_cons,
          nothing.1 noTests, behind, Nat.zero_add]
      · rw [List.filter_cons_of_pos (by simp [noTests]), List.map_cons, List.map_cons,
          List.sum_cons, List.sum_cons, behind]

/-- The number of records that have a tag. -/
def taggedCount (records : List TestRecord) : Nat :=
  records.countP (tag? · ≠ none)

theorem taggedCount_add_untagged
    (records : List TestRecord) :
    taggedCount records + (untagged records).length = records.length := by
  rw [taggedCount, untagged, ← List.countP_eq_length_filter,
    List.length_eq_countP_add_countP (tag? · ≠ none)]
  simp

/--
A report holds each image in one place, and where its fragments can be rendered, its
details show each image and each tagged record once.
-/
structure KeepsEvidence
    (report : Report)
    (records : List TestRecord)
    (images : List Image) :
    Prop where
  /-- The rows and the gallery hold the images. -/
  all : (report.coverage.flatMap (·.images) ++ report.gallery).Perm images
  /-- No image is in two of them, or twice in one. -/
  once : (report.coverage.flatMap (·.images) ++ report.gallery).Nodup
  oneRow :
    ∀ image, ∀ row ∈ report.coverage, ∀ other ∈ report.coverage,
      image ∈ row.images → image ∈ other.images → row = other
  /-- A row has the images of its criterion if it has tests. -/
  ofCriterion :
    ∀ row ∈ report.coverage, ∀ image ∈ row.images, image.criterion = some row.criterion.id
  /-- An image is in a row just when some record has its criterion, which is not empty. -/
  placed :
    ∀ image ∈ images,
      (∃ row ∈ report.coverage, image ∈ row.images) ↔
        ∃ id, image.criterion = some id ∧ id ≠ [] ∧
          ∃ record ∈ records, record.criterion = some id
  imageCount : report.imageCount = images.length
  imageMarks :
    ∀ values, fragments report = .ok values →
      Text.occurrences imageMark (values .detailSections) = report.imageCount
  testMarks :
    ∀ values, fragments report = .ok values →
      Text.occurrences testMark (values .detailSections) = taggedCount records
  rendered : (∃ values, fragments report = .ok values) ↔ Renderable report

theorem detailSections_of_fragments
    {report : Report}
    {values : Placeholder → Text}
    (rendered : fragments report = .ok values) :
    detailSections report = .ok (values .detailSections) := by
  obtain ⟨_, _, rest⟩ := Outcome.bind_eq_ok_iff.mp rendered
  obtain ⟨_, _, rest⟩ := Outcome.bind_eq_ok_iff.mp rest
  obtain ⟨details, shown, rest⟩ := Outcome.bind_eq_ok_iff.mp rest
  obtain ⟨_, _, same⟩ := Outcome.bind_eq_ok_iff.mp rest
  cases same
  exact shown

/-- The report on criteria that cover the records keeps the evidence. -/
theorem Covering.keepsEvidence
    (covering : Covering criteria records)
    (named : (images.map (·.filename)).Nodup)
    (projectName timestamp : Text) :
    KeepsEvidence (ofCriteria projectName timestamp records images criteria) records images where
  all := covering.perm_rows_gallery named
  once := (covering.perm_rows_gallery named).nodup_iff.mpr named.of_map
  oneRow := by
    intro image row isRow other isOther inRow inOther
    obtain ⟨first, isFirst, rfl⟩ := List.mem_map.mp isRow
    obtain ⟨second, isSecond, rfl⟩ := List.mem_map.mp isOther
    rw [covering.row_unique isFirst isSecond inRow inOther]
  ofCriterion := by
    intro row isRow image inRow
    obtain ⟨criterion, isCriterion, rfl⟩ := List.mem_map.mp isRow
    rw [covering.row_images isCriterion, List.mem_filter] at inRow
    exact (place?_eq_some_iff.mp (of_decide_eq_true inRow.2)).1
  placed := by
    intro image member
    simp only [← place?_eq_some_iff]
    rw [← covering.exists_row_iff member]
    simp [ofCriteria]
  imageCount := rfl
  imageMarks := by
    intro values rendered
    have shows := shows_detailSections (detailSections_of_fragments rendered)
    have rows :
        (((criteria.map (row records images)).filter (·.tests ≠ [])).map (·.images.length)).sum =
          ((criteria.map (row records images)).map (·.images.length)).sum := by
      refine sum_rows_with_tests fun row isRow noTests => ?_
      obtain ⟨criterion, _, rfl⟩ := List.mem_map.mp isRow
      rw [row_images_of_no_tests noTests, List.length_nil]
    have lengths := (covering.perm_rows_gallery named).length_eq
    rw [List.length_append, List.length_flatMap, ← rows] at lengths
    exact shows.images.occurrences.trans lengths
  testMarks := by
    intro values rendered
    have shows := shows_detailSections (detailSections_of_fragments rendered)
    have rows :
        (((criteria.map (row records images)).filter (·.tests ≠ [])).map (·.tests.length)).sum =
          ((criteria.map (row records images)).map (·.tests.length)).sum :=
      sum_rows_with_tests fun row _ noTests => by rw [noTests, List.length_nil]
    have lengths := covering.sum_length
    have tagged := taggedCount_add_untagged records
    rw [List.map_map] at rows
    have total : taggedCount records =
        (criteria.map fun criterion => (testsOf criterion.id records).length).sum := by
      omega
    exact shows.tests.occurrences.trans (rows.trans total.symm)
  rendered := exists_fragments_iff

/--
On a catalog of valid, different identifiers, records whose tags are valid and images of
different names, a report is compiled that keeps the evidence.
-/
theorem compile_keepsEvidence
    (projectName timestamp : Text)
    {records : List TestRecord}
    {catalog : Catalog}
    {images : List Image}
    (wellFormed : ∀ criterion ∈ catalog.criteria, criterion.WellFormed)
    (different : (catalog.criteria.map (·.id)).Nodup)
    (valid :
      ∀ record ∈ records, ∀ id, tag? record = some id → Criterion.isId id = true)
    (named : (images.map (·.filename)).Nodup) :
    ∃ report,
      (compile projectName timestamp records catalog images).value = .ok report ∧
        KeepsEvidence report records images := by
  obtain ⟨added, result, ids, _⟩ := value_compile projectName timestamp catalog images valid
  have covering := covering_append wellFormed different ids
  exact ⟨_, result, covering.keepsEvidence named projectName timestamp⟩

/-- Texts with marks in them, an image of an unknown criterion and one without criterion. -/
theorem compile_keepsEvidence_marks :
    let catalog : Catalog := {
      criteria := [{ id := "AC-2", description := "<img ", provenance := .markdown }]
    }
    let records : List TestRecord := [
      { title := "AC-7: <img src=x>", criterion := some "AC-7".toList, status := .failed },
      { title := "Loads", status := .passed, duration := 30, line := some 4 },
      { title := "AC-7", criterion := some "AC-7".toList, status := .passed,
        errors := ["<span class=\"test-name\">"] }]
    let images : List Image := [
      { filename := "AC-7-a.png", criterion := some "AC-7".toList, caption := "<img ",
        dataUri := "data:image/png;base64," },
      { filename := "AC-2-b.png", criterion := some "AC-2".toList, caption := "b",
        dataUri := "data:image/png;base64," },
      { filename := "c.png", criterion := none, caption := "c",
        dataUri := "data:image/png;base64," }]
    (∀ criterion ∈ catalog.criteria, criterion.WellFormed) ∧
      (catalog.criteria.map (·.id)).Nodup ∧
      (∀ record ∈ records, ∀ id, tag? record = some id → Criterion.isId id = true) ∧
      (images.map (·.filename)).Nodup ∧
      ∃ report values,
        (compile "Demo" "T" records catalog images).value = .ok report ∧
          KeepsEvidence report records images ∧ fragments report = .ok values := by
  intro catalog records images
  have wellFormed : ∀ criterion ∈ catalog.criteria, criterion.WellFormed := by decide
  have different : (catalog.criteria.map (·.id)).Nodup := by decide
  have valid :
      ∀ record ∈ records, ∀ id, tag? record = some id → Criterion.isId id = true := by
    have tags : ∀ record ∈ records, ∀ id ∈ tag? record, Criterion.isId id = true := by decide
    exact tags
  have named : (images.map (·.filename)).Nodup := by decide
  obtain ⟨report, compiled, keeps⟩ :=
    compile_keepsEvidence "Demo" "T" wellFormed different valid named
  have renderable :
      ∀ other, (compile "Demo" "T" records catalog images).value = .ok other →
        Renderable other := by
    rintro _ ⟨rfl⟩
    decide +kernel
  obtain ⟨values, rendered⟩ := keeps.rendered.mpr (renderable report compiled)
  exact ⟨wellFormed, different, valid, named, report, values, compiled, keeps, rendered⟩

end TestAudit.Report
