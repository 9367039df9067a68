import TestAudit.Proofs.Report.Partition

namespace TestAudit.Report

/-!
# Places of images

An image goes to the row of its criterion when some record has that criterion, and to
the gallery otherwise. When no two images have one name, the rows and the gallery
hold each image once.
-/

variable {criteria : List Criterion} {records : List TestRecord} {images : List Image}

/-- The criterion of an image, if it is not empty and some record is tagged with it. -/
def place? (records : List TestRecord) (image : Image) : Option Text :=
  image.criterion.filter fun id => records.any (tag? · = some id)

theorem place?_eq_some_iff
    {image : Image}
    {id : Text} :
    place? records image = some id ↔
      image.criterion = some id ∧ id ≠ [] ∧ ∃ record ∈ records, record.criterion = some id := by
  simp only [place?, Option.filter_eq_some_iff, List.any_eq_true, decide_eq_true_eq,
    tag?_eq_some_iff]
  constructor
  · rintro ⟨isCriterion, record, member, tagged, notEmpty⟩
    exact ⟨isCriterion, notEmpty, record, member, tagged⟩
  · rintro ⟨isCriterion, notEmpty, record, member, tagged⟩
    exact ⟨isCriterion, record, member, tagged, notEmpty⟩

/-- A row has the images whose place it is. -/
theorem Covering.row_images
    (covering : Covering criteria records)
    {criterion : Criterion}
    (member : criterion ∈ criteria) :
    (row records images criterion).images =
      images.filter (place? records · = some criterion.id) := by
  have notEmpty := covering.notEmpty criterion member
  change imagesOf criterion.id (testsOf criterion.id records) images = _
  rw [imagesOf, covering.testsOf_eq member]
  split
  next noTests =>
    refine (List.filter_eq_nil_iff.mpr fun image _ => ?_).symm
    have untagged := List.filter_eq_nil_iff.mp noTests
    simp only [decide_eq_true_eq, place?_eq_some_iff] at untagged ⊢
    rintro ⟨_, _, record, isRecord, tagged⟩
    exact untagged record isRecord (tag?_eq_some_iff.mpr ⟨tagged, notEmpty⟩)
  next hasTests =>
    obtain ⟨record, isTest⟩ := List.exists_mem_of_ne_nil _ hasTests
    obtain ⟨isRecord, tagged⟩ := List.mem_filter.mp isTest
    refine List.filter_congr fun image _ => decide_eq_decide.mpr ?_
    rw [place?_eq_some_iff]
    exact ⟨fun same =>
      ⟨same, notEmpty, record, isRecord, (tag?_eq_some_iff.mp (of_decide_eq_true tagged)).1⟩,
      fun placed => placed.1⟩

/-- The images of all rows are the images that have a place, each once. -/
theorem Covering.perm_images
    (covering : Covering criteria records)
    (images : List Image) :
    ((criteria.map (row records images)).flatMap (·.images)).Perm
      (images.filter fun image => (place? records image).isSome) := by
  have rows :
      (criteria.map (row records images)).flatMap (·.images) =
        (criteria.map (·.id)).flatMap fun id => images.filter (place? records · = some id) := by
    rw [List.flatMap_map, List.flatMap_map]
    exact List.flatMap_congr fun criterion member => covering.row_images member
  have placed :
      (images.filter fun image => (criteria.map (·.id)).any (place? records image = some ·)) =
        images.filter fun image => (place? records image).isSome := by
    refine List.filter_congr fun image _ => ?_
    cases isPlace : place? records image with
    | none => simp
    | some id =>
        obtain ⟨_, notEmpty, record, member, tagged⟩ := place?_eq_some_iff.mp isPlace
        obtain ⟨criterion, isCriterion, rfl⟩ :=
          List.mem_map.mp
            (covering.covers record member id (tag?_eq_some_iff.mpr ⟨tagged, notEmpty⟩))
        simpa using ⟨criterion, isCriterion, rfl⟩
  rw [rows, ← placed]
  exact perm_groups covering.different (place? records) images

/-- When images have different names, the gallery has those without a place. -/
theorem Covering.unplaced_eq
    (covering : Covering criteria records)
    (named : (images.map (·.filename)).Nodup) :
    unplaced (criteria.map (row records images)) images =
      images.filter fun image => !(place? records image).isSome := by
  refine List.filter_congr fun image member => congrArg (!·) (Bool.eq_iff_iff.mpr ?_)
  have perm := covering.perm_images images
  rw [List.contains_iff_mem, ← List.map_flatMap, List.mem_map]
  -- The gallery compares names only: two images of one name would leave it together.
  constructor
  · rintro ⟨other, inRow, sameName⟩
    obtain ⟨isImage, placed⟩ := List.mem_filter.mp (perm.mem_iff.mp inRow)
    rwa [List.inj_on_of_nodup_map named isImage member sameName] at placed
  · intro placed
    exact ⟨image, perm.mem_iff.mpr (List.mem_filter.mpr ⟨member, placed⟩), rfl⟩

/-- The rows and the gallery together hold the images, each once. -/
theorem Covering.perm_rows_gallery
    (covering : Covering criteria records)
    (named : (images.map (·.filename)).Nodup) :
    let rows := criteria.map (row records images)
    (rows.flatMap (·.images) ++ unplaced rows images).Perm images := by
  intro rows
  rw [covering.unplaced_eq named]
  exact ((covering.perm_images images).append_right _).trans (List.filter_append_perm _ images)

end TestAudit.Report
