import TestAudit.Proofs.Criteria.Precedence
import TestAudit.Proofs.Evidence.Image
import TestAudit.Proofs.Files.Names
import TestAudit.Proofs.Files.Project
import TestAudit.Proofs.Files.Written
import TestAudit.Proofs.Report.Preparing

namespace TestAudit.Report

/-!
# Effects of writing a report

Preparing a report changes no file, so a report that cannot be prepared leaves everything as
it was. A report that is written changes one file and adds the missing directories above it.
None of the places where inputs are looked for by convention is among these, so a second run
finds what the first one found.
-/

variable {project : Project} {tree changed : Tree} {timestamp : Text} {request : Request}

/-! ## Places that are not touched -/

/-- A place in a project that writing to the conventional place does not touch. -/
def IsApart (place : Text) : Prop :=
  Project.IsInside place ∧
    ¬ (Path.ofText place).names <+: (Path.ofText conventionalOutput).names

theorem isApart_conventionalResults : ∀ place ∈ conventionalResults, IsApart place := by
  unfold IsApart
  decide

theorem isApart_configuration : IsApart Config.fileName := by
  unfold IsApart
  decide

theorem isApart_conventionalDocuments :
    ∀ place ∈ CriteriaSource.conventionalDocuments, IsApart place := by
  unfold IsApart
  decide

theorem isApart_evidence : ∀ place ∈ Image.conventionalDirectories, IsApart place := by
  unfold IsApart
  decide

theorem isInside_conventionalOutput : Project.IsInside conventionalOutput := by
  decide

theorem isSettled_resolve
    {place : Text}
    (settledRoot : project.root.IsSettled)
    (inside : Project.IsInside place) :
    (project.resolve place).IsSettled := by
  rw [Project.resolve_of_isInside inside]
  refine ⟨settledRoot.1, fun member => ?_⟩
  rcases List.mem_append.mp member with inRoot | inPlace
  · exact settledRoot.2 inRoot
  · exact (inside.2 _ inPlace).1 rfl

theorem names_conventionalOutput_ne_nil :
    (project.resolve conventionalOutput).names ≠ [] := by
  have notEmpty : (Path.ofText conventionalOutput).names ≠ [] := by decide
  rw [Project.resolve_of_isInside isInside_conventionalOutput]
  exact List.append_ne_nil_of_right_ne_nil _ notEmpty

theorem IsApart.not_prefix
    {place : Text}
    (apart : IsApart place) :
    ¬ (project.resolve place).names <+: (project.resolve conventionalOutput).names := by
  rw [Project.resolve_of_isInside apart.1, Project.resolve_of_isInside isInside_conventionalOutput]
  exact fun isPrefix => apart.2 ((List.prefix_append_right_inj _).mp isPrefix)

/-! ## Inputs after writing -/

/--
The files that a user names are not the document, and the named configuration does not come up
by writing the document: if it is known to be no file before, it is known to be none afterwards.
-/
structure NamedApart
    (project : Project)
    (request : Request)
    (tree changed : Tree) : Prop where
  distinct : ∀ named ∈ [request.results, request.template, request.config], named ≠ [] →
    changed.locate (project.resolve named) ≠ changed.locate (project.resolve conventionalOutput)
  noNewConfig : request.config ≠ [] →
    tree.isFile (project.resolve request.config) = .ok false →
      changed.isFile (project.resolve request.config) = .ok false

theorem exists_look_of_isFile
    {path : Path}
    (isFile : tree.isFile path = .ok true) :
    ∃ node, tree.look path = .ok (some node) ∧ node.isFile = true := by
  obtain ⟨_ | node, looks, isKind⟩ := Tree.isFile_eq_ok_iff.mp isFile
  · cases isKind
  · exact ⟨node, looks, isKind⟩

theorem loadRecords_congr
    {path : Path}
    {node : Node}
    (isNode : tree.look path = .ok (some node))
    (isNodeAfter : changed.look path = .ok (some node)) :
    Results.loadRecords changed path = Results.loadRecords tree path := by
  rw [Results.loadRecords, Results.loadRecords, Results.load, Results.load,
    Tree.readText_congr isNode isNodeAfter]

section AfterWriting

variable {content : List UInt8} {target : Route} {place : Text}
variable (wellFormed : tree.WellFormed) (settledRoot : project.root.IsSettled)
variable (written : tree.WrittenAt changed (project.resolve conventionalOutput) content target)

section Places

include wellFormed settledRoot written

/-- A place that is not touched leads to the same node as before. -/
theorem look_resolve_of_apart
    (apart : IsApart place)
    {found : Option Node}
    (looks : tree.look (project.resolve place) = .ok found) :
    changed.look (project.resolve place) = .ok found := by
  have fit : ∀ name ∈ (project.resolve place).names, Path.fits name = true := by
    -- The root has short names, for the document was written below it.
    have outputFits := Tree.fits_of_locate written.located
    rw [Project.resolve_of_isInside isInside_conventionalOutput] at outputFits
    rw [Project.resolve_of_isInside apart.1]
    intro name member
    rcases List.mem_append.mp member with inRoot | inPlace
    · exact outputFits name (List.mem_append_left _ inRoot)
    · exact (apart.1.2 name inPlace).2.2
  exact written.keepsWays.look_eq wellFormed (isSettled_resolve settledRoot apart.1) fit
    (written.node?_eq_of_apart (isSettled_resolve settledRoot isInside_conventionalOutput)
      apart.not_prefix) looks

theorem isFile_resolve_of_apart
    (apart : IsApart place)
    {isThere : Bool}
    (isFile : tree.isFile (project.resolve place) = .ok isThere) :
    changed.isFile (project.resolve place) = .ok isThere := by
  obtain ⟨found, looks, isKind⟩ := Tree.isFile_eq_ok_iff.mp isFile
  exact Tree.isFile_eq_ok_iff.mpr
    ⟨found, look_resolve_of_apart wellFormed settledRoot written apart looks, isKind⟩

theorem isDirectory_resolve_of_apart
    (apart : IsApart place)
    {isThere : Bool}
    (isDirectory : tree.isDirectory (project.resolve place) = .ok isThere) :
    changed.isDirectory (project.resolve place) = .ok isThere := by
  obtain ⟨found, looks, isKind⟩ := Tree.isDirectory_eq_ok_iff.mp isDirectory
  exact Tree.isDirectory_eq_ok_iff.mpr
    ⟨found, look_resolve_of_apart wellFormed settledRoot written apart looks, isKind⟩

theorem keepsFile_resolve_of_apart
    (apart : IsApart place) :
    tree.KeepsFile changed (project.resolve place) :=
  Tree.keepsFile_of_look fun _ looks =>
    look_resolve_of_apart wellFormed settledRoot written apart looks

end Places

section Named

variable (namedApart : NamedApart project request tree changed)

include written namedApart

theorem look_named
    {named : Text}
    {node : Node}
    (isNamed : named ∈ [request.results, request.template, request.config])
    (notEmpty : named ≠ [])
    (looks : tree.look (project.resolve named) = .ok (some node)) :
    changed.look (project.resolve named) = .ok (some node) :=
  written.look_of_distinct (namedApart.distinct named isNamed notEmpty) looks

theorem keepsFile_namedConfig
    (notEmpty : request.config ≠ []) :
    tree.KeepsFile changed (project.resolve request.config) := by
  intro isThere isFile
  cases isThere with
  | true =>
      obtain ⟨node, looks, isKind⟩ := exists_look_of_isFile isFile
      have looksAfter := look_named written namedApart (by simp) notEmpty looks
      exact ⟨Tree.isFile_eq_ok_iff.mpr ⟨_, looksAfter, isKind⟩,
        Tree.content?_congr (looksAfter.trans looks.symm)⟩
  | false =>
      have isFileAfter := namedApart.noNewConfig notEmpty isFile
      have noContent : tree.content? (project.resolve request.config) = none :=
        Tree.content?_of_isFile_ne (by rw [isFile]; nofun)
      have noContentAfter : changed.content? (project.resolve request.config) = none :=
        Tree.content?_of_isFile_ne (by rw [isFileAfter]; nofun)
      exact ⟨isFileAfter, noContentAfter.trans noContent.symm⟩

end Named

include wellFormed settledRoot written

theorem keepsFile_of_configPath
    (namedApart : NamedApart project request tree changed)
    {path : Path}
    (isConfig : path ∈ CriteriaSource.configPaths project request.config) :
    tree.KeepsFile changed path := by
  unfold CriteriaSource.configPaths at isConfig
  rcases List.mem_append.mp isConfig with isNamed | isConventional
  · split at isNamed
    · cases isNamed
    next notEmpty =>
      rw [List.mem_singleton.mp isNamed]
      exact keepsFile_namedConfig written namedApart notEmpty
  · rw [List.mem_singleton.mp isConventional]
    exact keepsFile_resolve_of_apart wellFormed settledRoot written isApart_configuration

theorem keepsFile_of_source
    (namedApart : NamedApart project request tree changed)
    {titles : List Text}
    {source : CriteriaSource}
    (isSource : source ∈ CriteriaSource.ofProject project titles request.config)
    {path : Path}
    (isPath : source.path? = some path) :
    tree.KeepsFile changed path := by
  simp only [CriteriaSource.ofProject, List.append_assoc, List.mem_append, List.mem_cons,
    List.mem_map, List.cons_append, List.not_mem_nil, or_false] at isSource
  rcases isSource with isNamed | rfl | ⟨document, isDocument, rfl⟩ | rfl
  · split at isNamed
    · cases isNamed
    next notEmpty =>
      rw [List.mem_singleton.mp isNamed] at isPath
      cases isPath
      exact keepsFile_namedConfig written namedApart notEmpty
  · cases isPath
    exact keepsFile_resolve_of_apart wellFormed settledRoot written isApart_configuration
  · cases isPath
    exact keepsFile_resolve_of_apart wellFormed settledRoot written
      (isApart_conventionalDocuments document isDocument)
  · cases isPath

/-- The images of an evidence directory are the same after writing the report. -/
theorem value_bind_of_evidence
    (isPlace : place ∈ Image.conventionalDirectories)
    {images : List Image}
    (bound : (Image.bind tree (some (project.resolve place))).value = .ok images) :
    (Image.bind changed (some (project.resolve place))).value = .ok images := by
  have apart := isApart_evidence place isPlace
  have settled := isSettled_resolve settledRoot apart.1
  have settledOutput := isSettled_resolve settledRoot isInside_conventionalOutput
  rw [Image.value_bind_some] at bound ⊢
  obtain ⟨names, areNames, areImages⟩ := Outcome.map_eq_ok_iff.mp bound
  obtain ⟨route, located, isDirectory, rfl⟩ := Image.exists_of_namesIn areNames
  -- The document is not written through the evidence directory, so the directory has the same
  -- entries as before, and each of them the same content.
  have isRoute := Tree.eq_names_of_locate settled located
  have sameChildren : changed.children route = tree.children route :=
    written.children_eq_of_apart settledOutput (isRoute ▸ apart.not_prefix)
  have areNamesAfter := Image.namesIn_eq_sortedNames (written.keepsWays.locate located)
    (written.keepsWays.directory route isDirectory)
  rw [sameChildren] at areNamesAfter
  rw [areNamesAfter, ← areImages]
  refine congrArg Except.ok (List.filterMap_congr fun name isName => Image.imageIn?_congr ?_)
  obtain ⟨node, isEntry, _⟩ := Tree.mem_sortedNames_iff.mp isName
  have isNode : tree.node? (route ++ [name]) = some node :=
    (wellFormed.node?_eq_some_iff (List.concat_ne_nil _ route)).mpr
      (Tree.mem_children_iff.mp isEntry)
  have locatedEntry : tree.locate ((project.resolve place).descend [name]) =
      .ok (route ++ [name]) := wellFormed.locate_descend located isNode
  have isNodeAfter : changed.node? (route ++ [name]) = some node := by
    rw [written.node?_eq_of_apart settledOutput, isNode]
    exact fun isPrefix => apart.not_prefix (isRoute ▸ (List.prefix_append _ _).trans isPrefix)
  refine Tree.content?_congr ?_
  rw [Tree.look_of_locate (written.keepsWays.locate locatedEntry),
    Tree.look_of_locate locatedEntry, isNodeAfter, isNode]

/-- The images of a project are the same after writing its report. -/
theorem value_ofProject_eq
    {images : List Image}
    (bound : (Image.ofProject project tree).value = .ok images) :
    (Image.ofProject project changed).value = .ok images := by
  rw [Image.ofProject] at bound ⊢
  cases found : Image.directory? project tree with
  | error fault =>
      rw [found] at bound
      cases bound
  | ok directory? =>
      have foundAfter : Image.directory? project changed = .ok directory? := by
        refine Search.findM?_of_agree (fun path member isThere isDirectory => ?_) found
        obtain ⟨place, isPlace, rfl⟩ := List.mem_map.mp member
        exact isDirectory_resolve_of_apart wellFormed settledRoot written
          (isApart_evidence place isPlace) isDirectory
      rw [found] at bound
      rw [foundAfter]
      cases directory? with
      | none => exact bound
      | some directory =>
          obtain ⟨place, isPlace, rfl, _⟩ := Search.exists_of_findM?_map found
          exact value_bind_of_evidence wellFormed settledRoot written isPlace bound

/-- The results that were found are found again. -/
theorem findResults_again
    (namedApart : NamedApart project request tree changed)
    {path : Path}
    (found : findResults project tree request.results = .ok path) :
    findResults project changed request.results = .ok path ∧
      Results.loadRecords changed path = Results.loadRecords tree path := by
  unfold findResults at found ⊢
  split at found
  next notEmpty =>
    dsimp only at found
    split at found
    next isFile =>
      cases found
      obtain ⟨node, looks, isKind⟩ := exists_look_of_isFile isFile
      have looksAfter := look_named written namedApart (by simp) notEmpty looks
      rw [if_pos notEmpty]
      dsimp only
      rw [Tree.isFile_eq_ok_iff.mpr ⟨_, looksAfter, isKind⟩]
      exact ⟨rfl, loadRecords_congr looks looksAfter⟩
    next => cases found
    next => cases found
  next isEmpty =>
    split at found
    next first isFirst =>
      cases found
      have isFirstAfter : (conventionalResults.map project.resolve).findM? changed.isFile =
          .ok (some path) := by
        refine Search.findM?_of_agree (fun other member isThere isFile => ?_) isFirst
        obtain ⟨place, isPlace, rfl⟩ := List.mem_map.mp member
        exact isFile_resolve_of_apart wellFormed settledRoot written
          (isApart_conventionalResults place isPlace) isFile
      obtain ⟨place, isPlace, rfl, isFile⟩ := Search.exists_of_findM?_map isFirst
      obtain ⟨node, looks, _⟩ := exists_look_of_isFile isFile
      rw [if_neg isEmpty, isFirstAfter]
      exact ⟨rfl, loadRecords_congr looks (look_resolve_of_apart wellFormed settledRoot written
        (isApart_conventionalResults place isPlace) looks)⟩
    next => cases found
    next => cases found

omit wellFormed settledRoot in
/-- The template that was found is found again. -/
theorem findTemplate_again
    (namedApart : NamedApart project request tree changed)
    {template : TemplateChoice}
    (found : findTemplate project tree request.template = .ok template) :
    findTemplate project changed request.template = .ok template ∧
      template.read changed = template.read tree := by
  unfold findTemplate at found ⊢
  split at found
  next isEmpty =>
    cases found
    exact ⟨if_pos isEmpty, rfl⟩
  next notEmpty =>
    dsimp only at found
    split at found
    next isFile =>
      cases found
      obtain ⟨node, looks, isKind⟩ := exists_look_of_isFile isFile
      have looksAfter := look_named written namedApart (by simp) notEmpty looks
      rw [if_neg notEmpty]
      dsimp only
      rw [Tree.isFile_eq_ok_iff.mpr ⟨_, looksAfter, isKind⟩]
      refine ⟨rfl, ?_⟩
      rw [TemplateChoice.read, TemplateChoice.read, Tree.readText_congr looks looksAfter]
    next => cases found
    next => cases found

/-- After a report was written, its inputs are as they were before. -/
theorem sameInputs_of_written
    (namedApart : NamedApart project request tree changed) :
    SameInputs project request tree changed where
  catalog := fun _ _ => CriteriaSource.resolve_of_keepsFile fun _ isSource _ isPath =>
    keepsFile_of_source wellFormed settledRoot written namedApart isSource isPath
  images := fun _ => value_ofProject_eq wellFormed settledRoot written
  name := fun _ _ => CriteriaSource.projectName_of_keepsFile fun _ isConfig =>
    keepsFile_of_configPath wellFormed settledRoot written namedApart isConfig
  results := fun _ => findResults_again wellFormed settledRoot written namedApart
  template := fun _ => findTemplate_again written namedApart

end AfterWriting

/-! ## Storing -/

theorem store_eq_ok
    {prepared : Prepared}
    (stored : prepared.store tree = (changed, .ok ())) :
    ∃ between, tree.ensureDirectory prepared.path.parent = (between, .ok ()) ∧
      between.write prepared.path (Text.Utf8.encode prepared.document) = .ok changed := by
  unfold Prepared.store at stored
  split at stored
  next => cases stored
  next between ensured =>
    split at stored
    next isWritten =>
      cases stored
      exact ⟨between, ensured, isWritten⟩
    next => cases stored

/-- A report that was stored at its place is stored there again without any change. -/
theorem store_again
    {prepared : Prepared}
    {target : Route}
    (named : prepared.path.names ≠ [])
    (written : tree.WrittenAt changed prepared.path (Text.Utf8.encode prepared.document) target) :
    prepared.store changed = (changed, .ok ()) := by
  obtain ⟨isEnsured, isWritten⟩ := written.again named
  rw [Prepared.store, isEnsured]
  dsimp only
  rw [isWritten]

/--
A report that is not written because of its inputs leaves every file as it was. One that is
written is one file in the tree, with the directories above it that were missing. Written to
its conventional place, in a project whose root is settled, it is written just so by a second
run, if the named files are other files than the document and a named configuration that is no
file is none afterwards.
-/
theorem generate_effects
    (project : Project)
    (tree : Tree)
    (timestamp : Text)
    (request : Request) :
    let outcome := (generate project tree timestamp request).value
    (∀ fault, outcome.2 = .error fault → (∀ refused, fault ≠ .output refused) →
      outcome.1 = tree) ∧
    ∀ prepared, outcome.2 = .ok prepared →
      (∃ target, tree.WrittenAt outcome.1 (outputPath project request.output)
        (Text.Utf8.encode prepared.document) target) ∧
      (tree.WellFormed →
        (∃ named : Path, project.root = named.settled tree.workingPath) →
        outputPath project request.output = project.resolve conventionalOutput →
        NamedApart project request tree outcome.1 →
        (generate project outcome.1 timestamp request).value = (outcome.1, .ok prepared)) := by
  intro outcome
  have isOutcome : outcome = (generate project tree timestamp request).value := rfl
  clear_value outcome
  rw [value_generate] at isOutcome
  split at isOutcome
  next fault _ =>
    rw [isOutcome]
    exact ⟨fun _ _ _ => rfl, nofun⟩
  next prepared isPrepared =>
    split at isOutcome
    next changed stored =>
      rw [isOutcome]
      refine ⟨nofun, ?_⟩
      rintro _ ⟨rfl⟩
      have isPath := path_of_prepare isPrepared
      obtain ⟨between, ensured, isWritten⟩ := store_eq_ok stored
      obtain ⟨target, written⟩ := Tree.exists_writtenAt ensured isWritten
      refine ⟨⟨target, isPath ▸ written⟩, ?_⟩
      rintro wellFormed ⟨root, isRoot⟩ isConventional namedApart
      have settledRoot : project.root.IsSettled := isRoot ▸ Path.isSettled_settled _ _
      -- The second run prepares the same report, and finds the document where it stores it.
      rw [isConventional] at isPath
      have sameInputs := sameInputs_of_written wellFormed settledRoot (isPath ▸ written) namedApart
      have named : prepared.path.names ≠ [] := isPath ▸ names_conventionalOutput_ne_nil
      rw [value_generate, prepare_of_sameInputs sameInputs isPrepared]
      dsimp only
      rw [store_again named written]
    next changed refused stored =>
      rw [isOutcome]
      refine ⟨?_, nofun⟩
      rintro _ ⟨rfl⟩ notRefused
      exact (notRefused refused rfl).elim

/-- A project without a directory for the document, and named files beside it. -/
theorem generate_effects_of_project :
    let project : Project := { root := .ofText "/p" }
    let bytes (text : Text) : List UInt8 := text.map fun c => UInt8.ofNat c.toNat
    let tree : Tree := {
      nodes := [
        (["p"], .directory),
        (["p", "test-results.json"], .file (bytes "\x7b\"suites\": []\x7d")),
        (["p", "page.html"], .file (bytes "\x7b\x7bPROJECT_NAME\x7d\x7d")),
        (["p", "my.yml"], .file (bytes "project-name: Q"))]
      workingDirectory := ["p"]
    }
    let request : Request := { template := "page.html", config := "my.yml" }
    let first := (generate project tree "T" request).value
    tree.WellFormed ∧ NamedApart project request tree first.1 ∧
      ∃ prepared, first.2 = .ok prepared ∧ prepared.document = "Q" ∧
        (generate project first.1 "T" request).value = (first.1, .ok prepared) := by
  intro project bytes tree request first
  have wellFormed : tree.WellFormed := ⟨by decide, by decide, by decide, by decide⟩
  have evaluated :
      (∀ named ∈ [request.results, request.template, request.config],
        (first.1.locate (project.resolve named)).toOption ≠
          (first.1.locate (project.resolve conventionalOutput)).toOption) ∧
      tree.isFile (project.resolve request.config) = .ok true ∧
      first.2.toOption.map Prepared.document = some "Q" := by
    decide +kernel
  obtain ⟨elsewhere, isThere, isDocument⟩ := evaluated
  have namedApart : NamedApart project request tree first.1 :=
    ⟨fun named isNamed _ same => elsewhere named isNamed (congrArg Except.toOption same),
      fun _ notThere => by
        rw [isThere] at notThere
        cases notThere⟩
  obtain ⟨prepared, isPrepared, document⟩ := Option.map_eq_some_iff.mp isDocument
  have isFirst := Outcome.toOption_eq_some_iff.mp isPrepared
  have again := ((generate_effects project tree "T" request).2 prepared isFirst).2 wellFormed
    ⟨.ofText "/p", rfl⟩ rfl namedApart
  exact ⟨wellFormed, namedApart, prepared, isFirst, document, again⟩

/--
A configuration that is named by a way through the directory of the document is there in the
second run only, so the second document is another one.
-/
theorem generate_differs_through_new_directory :
    let project : Project := { root := .ofText "/p" }
    let bytes (text : Text) : List UInt8 := text.map fun c => UInt8.ofNat c.toNat
    let tree : Tree := {
      nodes := [
        (["p"], .directory),
        (["p", "results.json"], .file (bytes "\x7b\"suites\": []\x7d")),
        (["p", "page.html"], .file (bytes "\x7b\x7bPROJECT_NAME\x7d\x7d")),
        (["p", "my.yml"], .file (bytes "project-name: Q"))]
      workingDirectory := ["p"]
    }
    let request : Request := {
      results := "results.json"
      template := "page.html"
      config := "tests/report/../../my.yml"
    }
    let first := (generate project tree "T" request).value
    let second := (generate project first.1 "T" request).value
    outputPath project request.output = project.resolve conventionalOutput ∧
      (∀ named ∈ [request.results, request.template, request.config],
        (first.1.locate (project.resolve named)).toOption ≠
          (first.1.locate (project.resolve conventionalOutput)).toOption) ∧
      first.2.toOption.map Prepared.document = some "p" ∧
      second.2.toOption.map Prepared.document = some "Q" := by
  decide +kernel

end TestAudit.Report
