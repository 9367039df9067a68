import TestAudit.Proofs.Report.Document

namespace TestAudit

/-!
# Rows that only titles name

Titles are read three times: for the tag of a record, for the criteria of a project without
any file that defines some, and for the criteria that a report adds. A title with a description
is tagged with the criterion that it defines. So the rows of a report on such a project are
those of the tags: what titles with a description define comes first, what only other titles
name is added, and no row is without tests.
-/

/-! ## Titles with a description -/

theorem Title.criterion?_of_definition?
    {title : Text}
    {criterion : Criterion}
    (defines : definition? title = some criterion) :
    criterion? title = some criterion.id := by
  obtain ⟨pair, described, rfl⟩ := Option.map_eq_some_iff.mp defines
  unfold described? at described
  split at described
  · cases described
  next id rest found =>
    obtain ⟨line, _, rfl⟩ := Option.map_eq_some_iff.mp described
    rw [criterion?, found, Option.map_some]

/-- What titles define is defined by one of them, which begins with that identifier. -/
theorem Title.exists_title_of_mem_criteria
    {titles : List Text}
    {criterion : Criterion}
    (member : criterion ∈ criteria titles) :
    ∃ title ∈ titles, definition? title = some criterion ∧
      criterion? title = some criterion.id := by
  obtain ⟨title, isTitle, defines⟩ := List.mem_filterMap.mp (mem_of_mem_distinctBy member)
  exact ⟨title, isTitle, defines, criterion?_of_definition? defines⟩

/-! ## Projects without files that define criteria -/

namespace CriteriaSource

/-- The configurations and documents of a project, in their order. -/
def filesOf (project : Project) (config : Text) : List CriteriaSource :=
  (if config = [] then [] else [.namedConfig (project.resolve config)]) ++
    .projectConfig (project.resolve Config.fileName) ::
    conventionalDocuments.map fun document => .document (project.resolve document)

theorem ofProject_eq_concat
    (project : Project)
    (titles : List Text)
    (config : Text) :
    ofProject project titles config = filesOf project config ++ [.testTitles titles] := by
  simp [ofProject, filesOf]

/-- Titles are the last source: they count where no source before them gives a catalog. -/
theorem value_firstCatalog_concat
    {sources : List CriteriaSource}
    {sight : Sight}
    (noFile : (firstCatalog sources sight).value = .ok none)
    (titles : List Text) :
    (firstCatalog (sources ++ [.testTitles titles]) sight).value =
      .ok (catalogInTitles titles) := by
  induction sources generalizing sight with
  | nil =>
      rw [List.nil_append, firstCatalog]
      simp only [Session.value_bind, Session.value_lift, catalog, Logged.value_pure]
      cases catalogInTitles titles <;> rfl
  | cons source others inductionHypothesis =>
      rw [firstCatalog, Session.value_bind, Session.value_tree, Session.value_bind,
        Session.value_lift] at noFile
      rw [List.cons_append, firstCatalog, Session.value_bind, Session.value_tree,
        Session.value_bind, Session.value_lift]
      rcases isFirst : (source.catalog sight.tree).value with fault | _ | catalog
      · rw [isFirst] at noFile
        cases noFile
      · rw [isFirst] at noFile
        exact inductionHypothesis noFile
      · rw [isFirst] at noFile
        cases noFile

/-- Where no file gives a catalog, the criteria of a project are those of its titles. -/
theorem exists_resolve_of_no_file
    {project : Project}
    {config : Text}
    {sight : Sight}
    (noFile : (firstCatalog (filesOf project config) sight).value = .ok none)
    (titles : List Text) :
    ∃ catalog, (resolve project titles config sight).value = .ok catalog ∧
      catalog.criteria = Title.criteria titles := by
  have found : (firstCatalog (ofProject project titles config) sight).value =
      .ok (catalogInTitles titles) := by
    rw [ofProject_eq_concat, value_firstCatalog_concat noFile]
  rw [resolve, Session.value_bind, found, catalogInTitles, Catalog.ofCriteria?]
  split
  next noCriteria => exact ⟨_, rfl, noCriteria.symm⟩
  next => exact ⟨_, rfl, rfl⟩

end CriteriaSource

/-! ## Rows -/

namespace Report

/-- The rows of a report are those that titles name, each once, and each of them has tests. -/
structure RowsOfTitles (report : Report) (titles : List Text) : Prop where
  ids : ∀ id,
    id ∈ report.coverage.map (·.criterion.id) ↔ ∃ title ∈ titles, Title.criterion? title = some id
  different : (report.coverage.map (·.criterion.id)).Nodup
  tested : ∀ row ∈ report.coverage, row.tests ≠ []
  covered : report.coveredCount = report.coverage.length

variable {document : Json.Value} {records : List TestRecord}

/-- A record of a run is tagged with what its title begins with. -/
theorem tag?_eq_criterion?
    (read : Results.records document = .ok records)
    {record : TestRecord}
    (member : record ∈ records) :
    tag? record = Title.criterion? record.title := by
  obtain ⟨_, _, _, _, isRecord⟩ := Results.exists_spec_of_mem_records read member
  rw [← Results.criterion_of_specRecord? isRecord]
  cases named : record.criterion with
  | none => rw [tag?, named, Option.filter_none]
  | some id => exact tag?_of_records read member named

theorem rowsOfTitles_of_partitions
    (read : Results.records document = .ok records)
    {catalog : Catalog}
    (isCatalog : catalog.criteria = Title.criteria (records.map (·.title)))
    {report : Report}
    (partitions : Partitions report catalog records) :
    RowsOfTitles report (records.map (·.title)) := by
  have named (id : Text) :
      id ∈ report.coverage.map (·.criterion.id) ↔ ∃ record ∈ records, tag? record = some id := by
    rw [partitions.ids, List.mem_append, mem_newTags_iff, isCatalog]
    constructor
    · rintro (known | ⟨isTag, _⟩)
      · obtain ⟨criterion, isCriterion, rfl⟩ := List.mem_map.mp known
        obtain ⟨_, isTitle, _, begins⟩ := Title.exists_title_of_mem_criteria isCriterion
        obtain ⟨record, member, rfl⟩ := List.mem_map.mp isTitle
        exact ⟨record, member, (tag?_eq_criterion? read member).trans begins⟩
      · exact isTag
    · intro isTag
      -- Only titles without a description name what the catalog does not have.
      by_cases known : id ∈ (Title.criteria (records.map (·.title))).map (·.id)
      · exact Or.inl known
      · exact Or.inr ⟨isTag, known⟩
  have tested : ∀ row ∈ report.coverage, row.tests ≠ [] := by
    intro row isRow
    obtain ⟨record, member, isTag⟩ := (named _).mp (List.mem_map_of_mem isRow)
    rw [partitions.tests row isRow]
    exact List.ne_nil_of_mem (List.mem_filter.mpr ⟨member, decide_eq_true isTag⟩)
  refine ⟨fun id => ?_, partitions.different, tested, ?_⟩
  · rw [named]
    constructor
    · rintro ⟨record, member, isTag⟩
      exact ⟨record.title, List.mem_map_of_mem member,
        (tag?_eq_criterion? read member).symm.trans isTag⟩
    · rintro ⟨_, isTitle, begins⟩
      obtain ⟨record, member, rfl⟩ := List.mem_map.mp isTitle
      exact ⟨record, member, (tag?_eq_criterion? read member).trans begins⟩
  · exact List.countP_eq_length.mpr fun row isRow => decide_eq_true (tested row isRow)

/--
Where neither a configuration nor a document gives a catalog, the report on any records that
are read has one row for each identifier that one of their titles begins with and no other, and
no row is without tests. Whatever identifier titles with a description define, the title that
defines it begins with it.
-/
theorem rows_of_titles
    (read : Results.records document = .ok records)
    {project : Project}
    {config : Text}
    {sight : Sight}
    (noFile : (CriteriaSource.firstCatalog (CriteriaSource.filesOf project config) sight).value =
      .ok none)
    (images : List Image)
    (projectName timestamp : Text) :
    (∃ catalog report,
      (CriteriaSource.resolve project (records.map (·.title)) config sight).value = .ok catalog ∧
        (compile projectName timestamp records catalog images).value = .ok report ∧
          RowsOfTitles report (records.map (·.title))) ∧
      ∀ titles catalog, CriteriaSource.catalogInTitles titles = some catalog →
        ∀ criterion ∈ catalog.criteria, ∃ title ∈ titles,
          Title.definition? title = some criterion ∧
            Title.criterion? title = some criterion.id := by
  constructor
  · obtain ⟨catalog, resolved, isCatalog⟩ :=
      CriteriaSource.exists_resolve_of_no_file noFile (records.map (·.title))
    have valid :
        ∀ record ∈ records, ∀ id, tag? record = some id → Criterion.isId id = true :=
      fun record member id isTag => isId_of_records read member (tag?_eq_some_iff.mp isTag).1
    have wellFormed : ∀ criterion ∈ catalog.criteria, criterion.WellFormed := by
      rw [isCatalog]
      exact fun _ member => (Title.definedBy_of_mem_criteria member).wellFormed
    have different : (catalog.criteria.map (·.id)).Nodup := by
      rw [isCatalog]
      exact nodup_map_distinctBy _ _
    obtain ⟨added, compiled, ids, _⟩ := value_compile projectName timestamp catalog images valid
    have covering := covering_append wellFormed different ids
    exact ⟨_, _, resolved, compiled, rowsOfTitles_of_partitions read isCatalog
      (covering.partitions ids projectName timestamp images)⟩
  · intro titles catalog given criterion member
    unfold CriteriaSource.catalogInTitles Catalog.ofCriteria? at given
    split at given
    · cases given
    · cases given
      exact Title.exists_title_of_mem_criteria member

/-- A title without a description before one with it, a blank description, and no identifier. -/
theorem rows_of_titles_of_bare_title :
    let attempt : Json.Value := .object [("status", .string "passed"), ("duration", .integer 30)]
    let spec (title : Text) : Json.Value := .object [
      ("title", .string title),
      ("tests", .array [.object [("results", .array [attempt])]])]
    let titles : List Text := ["AC-7", "AC-2: Sorts", "Loads", "AC-7:  Deletes", "AC-3 \n", "AC-9x"]
    let document : Json.Value := .object [
      ("suites", .array [.object [("specs", .array (titles.map spec))]])]
    let project : Project := { root := .ofText "/demo" }
    let sight : Sight := {
      tree := {
        nodes := [
          (["demo"], .directory),
          (["demo", "acceptance-criteria.md"], .file [65, 67, 45, 49])]
        workingDirectory := []
      }
    }
    let records : List TestRecord := titles.map fun title => {
      title, criterion := Title.criterion? title, status := .passed, duration := 30
    }
    Results.records document = .ok records ∧
      ∃ catalog report,
        (CriteriaSource.resolve project (records.map (·.title)) [] sight).value = .ok catalog ∧
        (compile "Demo" "T" records catalog []).value = .ok report ∧
        RowsOfTitles report (records.map (·.title)) ∧
        report.coverage.map (·.criterion.id) =
          (["AC-2", "AC-7", "AC-3", "AC-9"] : List Text) := by
  intro attempt spec titles document project sight records
  have read : Results.records document = .ok records := by rfl
  have noFile :
      (CriteriaSource.firstCatalog (CriteriaSource.filesOf project []) sight).value =
        .ok none := by
    decide +kernel
  obtain ⟨⟨catalog, report, resolved, compiled, rows⟩, _⟩ :=
    rows_of_titles read noFile [] "Demo" "T"
  have ids :
      ((CriteriaSource.resolve project (records.map (·.title)) [] sight).value.toOption.bind
          fun catalog => (compile "Demo" "T" records catalog []).value.toOption.map
            fun report => report.coverage.map (·.criterion.id)) =
        some ["AC-2".toList, "AC-7".toList, "AC-3".toList, "AC-9".toList] := by
    decide +kernel
  rw [resolved] at ids
  change (compile "Demo" "T" records catalog []).value.toOption.map _ = _ at ids
  rw [compiled] at ids
  exact ⟨read, catalog, report, resolved, compiled, rows, Option.some.inj ids⟩

end Report

end TestAudit
