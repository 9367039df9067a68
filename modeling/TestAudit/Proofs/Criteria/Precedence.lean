import TestAudit.Proofs.Criteria.Source

namespace TestAudit.CriteriaSource

/-!
# Precedence of sources

The catalog of a project is that of the first source that defines a criterion, and it is as
that source defines it, unless it cannot be told of a source that is looked at whether its file
is there. What later sources hold makes no difference, nor does it matter whether an earlier
source is missing or cannot be read.
-/

variable {tree other : Tree}

/-! ## The first source -/

/-- A source defines criteria, and no source before it does. -/
def IsFirst (tree : Tree) (sources : List CriteriaSource) (source : CriteriaSource) : Prop :=
  ∃ before after,
    sources = before ++ source :: after ∧
      (∀ earlier ∈ before, earlier.definitions tree = []) ∧
      source.definitions tree ≠ []

/--
The catalog that is chosen among sources: all that the first source that defines criteria holds,
or no criteria where no source defines any.
-/
inductive Choice (tree : Tree) (sources : List CriteriaSource) : Catalog → Prop where
  | first {source : CriteriaSource} :
      IsFirst tree sources source →
      Choice tree sources (source.held tree)
  | none :
      (∀ source ∈ sources, source.definitions tree = []) →
      Choice tree sources { source := "none" }

/-- The catalog of a project is the one that is chosen among its sources. -/
def ChoosesFirst
    (project : Project)
    (titles : List Text)
    (config : Text)
    (tree : Tree) : Prop :=
  ∃ catalog, ((resolve project titles config).onFiles tree).value = .ok catalog ∧
    Choice tree (ofProject project titles config) catalog

/--
A source is looked at, and it cannot be told whether its file is there: all sources before it
can be checked, and define nothing.
-/
def FailsAt
    (tree : Tree)
    (sources : List CriteriaSource)
    (source : CriteriaSource)
    (fault : Tree.Fault) : Prop :=
  ∃ before after,
    sources = before ++ source :: after ∧
      (∀ earlier ∈ before, earlier.checked tree = .ok () ∧ earlier.definitions tree = []) ∧
      source.checked tree = .error fault

/-- The criteria that a source defines have identifiers of their own and pass every check. -/
structure DefinesWell (tree : Tree) (source : CriteriaSource) : Prop where
  different : ((source.definitions tree).map Criterion.id).Nodup
  defined : ∀ criterion ∈ source.definitions tree, criterion.DefinedBy source.provenance
  wellFormed : ∀ criterion ∈ source.definitions tree, criterion.WellFormed

theorem definesWell
    (tree : Tree)
    (source : CriteriaSource) :
    source.DefinesWell tree where
  different := nodup_definitions source tree
  defined := fun _ => definedBy_of_mem_definitions
  wellFormed := fun _ member => (definedBy_of_mem_definitions member).wellFormed

/-- On files that stay as they are, the catalog of a project is found source by source. -/
theorem value_resolve_onFiles
    (project : Project)
    (titles : List Text)
    (config : Text)
    (tree : Tree) :
    ((resolve project titles config).onFiles tree).value =
      ((ofProject project titles config).findSomeM? fun source : CriteriaSource =>
        (source.catalog tree).value).map (·.getD { source := "none" }) := by
  rw [← firstCatalog_onFiles, resolve, Session.value_bind_onFiles]
  rcases ((firstCatalog (ofProject project titles config)).onFiles tree).value with
    fault | _ | catalog <;> rfl

theorem resolve_eq_error_iff
    {project : Project}
    {titles : List Text}
    {config : Text}
    {fault : Tree.Fault} :
    ((resolve project titles config).onFiles tree).value = .error fault ↔
      ∃ source, FailsAt tree (ofProject project titles config) source fault := by
  rw [value_resolve_onFiles, Outcome.map_eq_error_iff, Search.findSomeM?_eq_error_iff]
  simp only [catalog_eq_none_iff, catalog_eq_error_iff]
  constructor
  · rintro ⟨before, source, after, shape, areOut, isFault⟩
    exact ⟨source, before, after, shape, areOut, isFault⟩
  · rintro ⟨source, before, after, shape, areOut, isFault⟩
    exact ⟨before, source, after, shape, areOut, isFault⟩

/-- The first catalog that sources give is the one that is chosen among them. -/
theorem choice_of_resolve
    {project : Project}
    {titles : List Text}
    {config : Text}
    {catalog : Catalog}
    (resolved : ((resolve project titles config).onFiles tree).value = .ok catalog) :
    Choice tree (ofProject project titles config) catalog := by
  rw [value_resolve_onFiles] at resolved
  rcases found : (ofProject project titles config).findSomeM?
      fun source : CriteriaSource => (source.catalog tree).value with fault | _ | first
  · rw [found] at resolved
    cases resolved
  · rw [found] at resolved
    cases resolved
    exact .none fun source member =>
      (catalog_eq_none_iff.mp (Search.findSomeM?_eq_none_iff.mp found source member)).2
  · rw [found] at resolved
    cases resolved
    obtain ⟨before, source, after, shape, areOut, given⟩ := Search.findSomeM?_eq_some_iff.mp found
    obtain ⟨_, defines, rfl⟩ := catalog_eq_some_iff.mp given
    exact .first ⟨before, after, shape,
      fun earlier member => (catalog_eq_none_iff.mp (areOut earlier member)).2, defines⟩

/-- A catalog is chosen unless the choice ends at a source of which the check fails. -/
theorem choosesFirst_iff_not_failsAt
    {project : Project}
    {titles : List Text}
    {config : Text} :
    ChoosesFirst project titles config tree ↔
      ¬ ∃ source fault, FailsAt tree (ofProject project titles config) source fault := by
  constructor
  · rintro ⟨catalog, resolved, _⟩ ⟨source, fault, fails⟩
    rw [resolve_eq_error_iff.mpr ⟨source, fails⟩] at resolved
    cases resolved
  · intro noFailure
    cases resolved : ((resolve project titles config).onFiles tree).value with
    | ok catalog => exact ⟨catalog, resolved, choice_of_resolve resolved⟩
    | error fault =>
        obtain ⟨source, fails⟩ := resolve_eq_error_iff.mp resolved
        exact (noFailure ⟨source, fault, fails⟩).elim

/-! ## Sources that hold the same -/

/-- The check of a path and the content behind it are the same. -/
structure SameFile (tree other : Tree) (path : Path) : Prop where
  isFile : tree.isFile path = other.isFile path
  content : tree.content? path = other.content? path

/-- Two sources hold the same: the same file under one path, or the same titles. -/
inductive HoldSame (tree other : Tree) : CriteriaSource → CriteriaSource → Prop where
  | namedConfig {path : Path} :
      SameFile tree other path →
      HoldSame tree other (.namedConfig path) (.namedConfig path)
  | projectConfig {path : Path} :
      SameFile tree other path →
      HoldSame tree other (.projectConfig path) (.projectConfig path)
  | document {path : Path} :
      SameFile tree other path →
      HoldSame tree other (.document path) (.document path)
  | testTitles {titles : List Text} :
      HoldSame tree other (.testTitles titles) (.testTitles titles)

theorem text?_congr
    {path : Path}
    (same : tree.content? path = other.content? path) :
    tree.text? path = other.text? path := by
  rw [Tree.text?, Tree.text?, same]

theorem configIn?_congr
    {path : Path}
    (same : tree.content? path = other.content? path) :
    configIn? tree path = configIn? other path := by
  rw [configIn?, configIn?, text?_congr same]

namespace HoldSame

variable {source twin : CriteriaSource}

theorem checked_eq
    (same : HoldSame tree other source twin) :
    source.checked tree = twin.checked other := by
  cases same with
  | namedConfig file | projectConfig file | document file => rw [checked, checked, file.isFile]
  | testTitles => rfl

theorem held_eq
    (same : HoldSame tree other source twin) :
    source.held tree = twin.held other := by
  cases same with
  | namedConfig file | projectConfig file =>
      rw [held, held, definitions, definitions, config?, config?, configIn?_congr file.content]
  | document file =>
      rw [held, held, definitions, definitions, text?_congr file.content, config?, config?]
  | testTitles => rfl

/-- Sources that hold the same give the same catalog. -/
theorem value_catalog
    (same : HoldSame tree other source twin) :
    (source.catalog tree).value = (twin.catalog other).value := by
  have sameDefinitions : source.definitions tree = twin.definitions other :=
    congrArg Catalog.criteria same.held_eq
  rw [CriteriaSource.value_catalog, CriteriaSource.value_catalog, same.checked_eq, same.held_eq,
    sameDefinitions]

end HoldSame

/-! ## Sources that are passed over -/

/-- The file of a source. -/
def path? : CriteriaSource → Option Path
  | .namedConfig path | .projectConfig path | .document path => some path
  | .testTitles _ => none

/-- The file of a source that holds a configuration. -/
def configPath? : CriteriaSource → Option Path
  | .namedConfig path | .projectConfig path => some path
  | .document _ | .testTitles _ => none

/--
A source of which nothing can be read: its file is missing or closed, its bytes are no text, or
its text is no configuration.
-/
inductive PassedOver (tree : Tree) (source : CriteriaSource) : Prop where
  | absent {path : Path} :
      source.path? = some path →
      tree.isFile path = .ok false →
      PassedOver tree source
  | closed {path : Path} :
      source.path? = some path →
      tree.look path = .ok (some .closedFile) →
      PassedOver tree source
  | undecodable {path : Path} {content : List UInt8} {fault : Text.Utf8.Fault} :
      source.path? = some path →
      tree.content? path = some content →
      Text.Utf8.decode content = .error fault →
      PassedOver tree source
  | malformed {path : Path} {text : Text} {fault : Config.Fault} :
      source.configPath? = some path →
      tree.text? path = some text →
      (Config.parse text).value = .error fault →
      PassedOver tree source

theorem checked_eq_ok_iff
    {source : CriteriaSource}
    {path : Path}
    (isPath : source.path? = some path) :
    source.checked tree = .ok () ↔ ∃ isThere, tree.isFile path = .ok isThere := by
  cases source with
  | testTitles titles => cases isPath
  | namedConfig _ | projectConfig _ | document _ =>
      cases isPath
      rw [checked]
      cases tree.isFile path <;> simp [Except.map]

theorem definitions_of_text?_eq_none
    {source : CriteriaSource}
    {path : Path}
    (isPath : source.path? = some path)
    (noText : tree.text? path = none) :
    source.definitions tree = [] := by
  cases source with
  | testTitles titles => cases isPath
  | namedConfig _ | projectConfig _ | document _ =>
      cases isPath
      simp [definitions, configIn?, noText]

/-- Where nothing can be read there is no catalog, and no fault. -/
theorem PassedOver.catalog_eq_none
    {source : CriteriaSource}
    (passed : PassedOver tree source) :
    (source.catalog tree).value = .ok none := by
  refine catalog_eq_none_iff.mpr ?_
  cases passed with
  | absent isPath isAbsent =>
      exact ⟨(checked_eq_ok_iff isPath).mpr ⟨_, isAbsent⟩, definitions_of_text?_eq_none isPath
        (Tree.text?_of_isFile_ne (by rw [isAbsent]; nofun))⟩
  | closed isPath looks =>
      have isFile := Tree.isFile_eq_ok_iff.mpr ⟨_, looks, rfl⟩
      have noContent : tree.content? _ = none :=
        Option.eq_none_iff_forall_ne_some.mpr fun content isContent => by
          rw [Tree.content?_eq_some_iff, looks] at isContent
          cases isContent
      refine ⟨(checked_eq_ok_iff isPath).mpr ⟨_, isFile⟩, definitions_of_text?_eq_none isPath ?_⟩
      rw [Tree.text?, noContent]
      rfl
  | undecodable isPath isContent isFault =>
      refine ⟨(checked_eq_ok_iff isPath).mpr ⟨_, Tree.isFile_of_content? isContent⟩,
        definitions_of_text?_eq_none isPath ?_⟩
      rw [Tree.text?, isContent, Option.bind_some, isFault]
      rfl
  | malformed isPath isText isFault =>
      have isFile := Tree.isFile_of_text? isText
      cases source with
      | document _ | testTitles _ => cases isPath
      | namedConfig _ | projectConfig _ =>
          cases isPath
          refine ⟨(checked_eq_ok_iff rfl).mpr ⟨_, isFile⟩, ?_⟩
          simp [definitions, configIn?, isText, isFault, Except.toOption]

/-! ## Two runs -/

/--
Two lists of sources agree up to the first that defines criteria: source by source they hold
the same, or in both of them nothing can be read.
-/
inductive Agree (tree other : Tree) : List CriteriaSource → List CriteriaSource → Prop where
  | nil : Agree tree other [] []
  | decided {source twin : CriteriaSource} {sources twins : List CriteriaSource} :
      HoldSame tree other source twin →
      source.definitions tree ≠ [] →
      Agree tree other (source :: sources) (twin :: twins)
  | same {source twin : CriteriaSource} {sources twins : List CriteriaSource} :
      HoldSame tree other source twin →
      Agree tree other sources twins →
      Agree tree other (source :: sources) (twin :: twins)
  | passedOver {source twin : CriteriaSource} {sources twins : List CriteriaSource} :
      PassedOver tree source →
      PassedOver other twin →
      Agree tree other sources twins →
      Agree tree other (source :: sources) (twin :: twins)

/-- Sources that agree up to the first that defines criteria give the same catalog. -/
theorem Agree.findSomeM?_eq
    {sources twins : List CriteriaSource}
    (agree : Agree tree other sources twins) :
    (sources.findSomeM? fun source : CriteriaSource => (source.catalog tree).value) =
      twins.findSomeM? fun twin : CriteriaSource => (twin.catalog other).value := by
  induction agree with
  | nil => rfl
  | @decided source twin _ _ isSame defines =>
      rw [List.findSomeM?_cons, List.findSomeM?_cons, ← isSame.value_catalog]
      rcases given : (source.catalog tree).value with fault | _ | catalog
      · rfl
      · exact (defines (catalog_eq_none_iff.mp given).2).elim
      · rfl
  | same isSame _ inductionHypothesis =>
      rw [List.findSomeM?_cons, List.findSomeM?_cons, isSame.value_catalog, inductionHypothesis]
  | passedOver first second _ inductionHypothesis =>
      rw [List.findSomeM?_cons, List.findSomeM?_cons, first.catalog_eq_none,
        second.catalog_eq_none]
      exact inductionHypothesis

/--
The catalog of a project is chosen among its sources in their order: the configuration that
the user names, that of the project, three documents, and the titles of the tests. It is all
that the first source with a criterion holds, exactly when the choice does not end at a source
of which it cannot be told whether its file is there; that is the only fault. Every criterion
that a source defines passes the checks of a criterion, so none is refused. Where other files
and titles agree with these up to the first source that defines criteria, the outcome is the
same.
-/
theorem choosesFirst_iff
    (project : Project)
    (titles : List Text)
    (config : Text)
    (tree : Tree) :
    let sources (titles : List Text) : List CriteriaSource :=
      (if config = [] then [] else [.namedConfig (project.resolve config)]) ++ [
        .projectConfig (project.resolve "testwarden-config.yml"),
        .document (project.resolve "docs/acceptance-criteria.md"),
        .document (project.resolve "docs/acceptance_criteria.md"),
        .document (project.resolve "acceptance-criteria.md"),
        .testTitles titles]
    let chosen := ((resolve project titles config).onFiles tree).value
    (∀ titles, ofProject project titles config = sources titles) ∧
      (ChoosesFirst project titles config tree ↔
        ¬ ∃ source fault, FailsAt tree (sources titles) source fault) ∧
      (∀ fault, chosen = .error fault ↔ ∃ source, FailsAt tree (sources titles) source fault) ∧
      (∀ source ∈ sources titles, source.DefinesWell tree) ∧
      ∀ (other : Tree) (otherTitles : List Text),
        Agree tree other (sources titles) (sources otherTitles) →
        ((resolve project otherTitles config).onFiles other).value = chosen := by
  intro sources chosen
  have inOrder (titles : List Text) : ofProject project titles config = sources titles := by
    simp only [ofProject, sources, List.append_assoc]
    rfl
  refine ⟨inOrder, ?_, fun fault => ?_, fun source _ => definesWell tree source, ?_⟩
  · rw [← inOrder]
    exact choosesFirst_iff_not_failsAt
  · rw [← inOrder]
    exact resolve_eq_error_iff
  · intro other otherTitles agree
    rw [value_resolve_onFiles, inOrder, ← agree.findSomeM?_eq, ← inOrder, ← value_resolve_onFiles]

/-- A malformed configuration, or none, before a document; what comes after it differs. -/
theorem choosesFirst_iff_of_document :
    let project : Project := { root := .ofText "/p" }
    let bytes (text : Text) : List UInt8 := text.map fun c => UInt8.ofNat c.toNat
    let document : Route × Node :=
      (["p", "docs", "acceptance-criteria.md"], .file (bytes "# AC-1: Login"))
    let directories : List (Route × Node) := [(["p"], .directory), (["p", "docs"], .directory)]
    let tree : Tree := {
      nodes := directories ++ [document, (["p", "testwarden-config.yml"], .file (bytes "oops"))]
      workingDirectory := []
    }
    let other : Tree := {
      nodes := directories ++ [document, (["p", "acceptance-criteria.md"], .file [0xff])]
      workingDirectory := []
    }
    let catalog : Catalog := {
      criteria := [{ id := "AC-1", description := "Login", provenance := .markdown }]
      source := "markdown:acceptance-criteria.md"
    }
    Agree tree other (ofProject project ["AC-2: Logout"] []) (ofProject project [] []) ∧
      ((resolve project ["AC-2: Logout"] []).onFiles tree).value = .ok catalog ∧
      ((resolve project [] []).onFiles other).value = .ok catalog := by
  intro project bytes document directories tree other catalog
  have isText : tree.text? (project.resolve Config.fileName) = some "oops" := by decide
  have isMalformed : (Config.parse "oops").value = .error (.notKeyValue 1 "oops") := by decide
  have agree :
      Agree tree other (ofProject project ["AC-2: Logout"] []) (ofProject project [] []) :=
    .passedOver (.malformed rfl isText isMalformed) (.absent rfl (by decide))
      (.decided (.document ⟨by decide, by decide⟩) (by decide))
  have chosen : ((resolve project ["AC-2: Logout"] []).onFiles tree).value = .ok catalog := by
    decide
  have same := (choosesFirst_iff project ["AC-2: Logout"] [] tree).2.2.2.2 other [] agree
  exact ⟨agree, chosen, same.trans chosen⟩

/-- The name of a configuration is too long to be told whether it is there, so none is chosen. -/
theorem not_choosesFirst_of_long_name :
    let project : Project := { root := .ofText "/p" }
    let tree : Tree := { nodes := [(["p"], .directory)], workingDirectory := ["p"] }
    ¬ ChoosesFirst project [] (List.replicate 256 'x') tree := by
  intro project tree
  rintro ⟨catalog, resolved, _⟩
  have fails : ((resolve project [] (List.replicate 256 'x')).onFiles tree).value =
      .error { reason := .nameTooLong, path := project.resolve (List.replicate 256 'x') } := by
    decide +kernel
  rw [fails] at resolved
  cases resolved

/-! ## Files that are kept -/

theorem holdSame_of_keepsFile
    {source : CriteriaSource}
    (keeps : ∀ path, source.path? = some path → tree.KeepsFile other path)
    (isChecked : source.checked tree = .ok ()) :
    HoldSame tree other source source := by
  have sameFile {path : Path} (isPath : source.path? = some path) : SameFile tree other path := by
    obtain ⟨isThere, isFile⟩ := (checked_eq_ok_iff isPath).mp isChecked
    obtain ⟨isFileAfter, sameContent⟩ := keeps path isPath isThere isFile
    exact ⟨isFile.trans isFileAfter.symm, sameContent.symm⟩
  cases source with
  | namedConfig path => exact .namedConfig (sameFile rfl)
  | projectConfig path => exact .projectConfig (sameFile rfl)
  | document path => exact .document (sameFile rfl)
  | testTitles titles => exact .testTitles

/-- A catalog that a project has is its catalog wherever the files of its sources are kept. -/
theorem resolve_of_keepsFile
    {project : Project}
    {titles : List Text}
    {config : Text}
    {catalog : Catalog}
    (keeps : ∀ source ∈ ofProject project titles config, ∀ path, source.path? = some path →
      tree.KeepsFile other path)
    (resolved : ((resolve project titles config).onFiles tree).value = .ok catalog) :
    ((resolve project titles config).onFiles other).value = .ok catalog := by
  rw [value_resolve_onFiles] at resolved ⊢
  obtain ⟨found, isFound, rfl⟩ := Outcome.map_eq_ok_iff.mp resolved
  refine Outcome.map_eq_ok_iff.mpr ⟨found, Search.findSomeM?_of_agree ?_ isFound, rfl⟩
  intro source member given isGiven
  have isChecked : source.checked tree = .ok () := by
    rw [CriteriaSource.value_catalog] at isGiven
    obtain ⟨_, isChecked, _⟩ := Outcome.map_eq_ok_iff.mp isGiven
    exact isChecked
  rw [← (holdSame_of_keepsFile (keeps source member) isChecked).value_catalog, isGiven]

/-! ## Names of projects -/

/-- The project name that a configuration file gives, if it can be told whether it is there. -/
def nameIn (tree : Tree) (path : Path) : Except Tree.Fault (Option Text) :=
  (tree.isFile path).map fun _ => (configIn? tree path).bind Config.projectName?

/-- On files that stay as they are, a project name is looked for file by file. -/
theorem firstProjectName?_onFiles
    (paths : List Path)
    (tree : Tree) :
    ((firstProjectName? paths).onFiles tree).value = paths.findSomeM? (nameIn tree) := by
  induction paths with
  | nil => rfl
  | cons path others inductionHypothesis =>
      rw [firstProjectName?, Session.value_bind_onFiles, Session.value_tree_onFiles,
        Session.value_bind_onFiles, Session.value_lift_onFiles, List.findSomeM?_cons, nameIn,
        ← toOption_load]
      cases isFile : tree.isFile path with
      | error fault =>
          rw [load_eq_access_iff.mpr isFile]
          rfl
      | ok isThere =>
          cases loaded : (Config.load tree path).value with
          | error fault =>
              cases fault with
              | access fault =>
                  rw [load_eq_access_iff.mp loaded] at isFile
                  cases isFile
              | missing _ => exact inductionHypothesis
              | unreadable _ _ => exact inductionHypothesis
              | malformed _ => exact inductionHypothesis
          | ok config =>
              simp only [Except.toOption, Option.bind_some, Except.map]
              cases config.projectName? with
              | some name => rfl
              | none => exact inductionHypothesis

/-- A name that a project has is its name wherever its configuration files are kept. -/
theorem projectName_of_keepsFile
    {project : Project}
    {catalog : Catalog}
    {config name : Text}
    (keeps : ∀ path ∈ configPaths project config, tree.KeepsFile other path)
    (named : ((projectName project catalog config).onFiles tree).value = .ok name) :
    ((projectName project catalog config).onFiles other).value = .ok name := by
  unfold projectName at named ⊢
  split at named
  · exact named
  · change Except.map _ ((firstProjectName? _).onFiles tree).value = _ at named
    change Except.map _ ((firstProjectName? _).onFiles other).value = _
    rw [firstProjectName?_onFiles] at named ⊢
    obtain ⟨found, isFound, rfl⟩ := Outcome.map_eq_ok_iff.mp named
    refine Outcome.map_eq_ok_iff.mpr ⟨found, Search.findSomeM?_of_agree ?_ isFound, rfl⟩
    intro path member seen isSeen
    obtain ⟨isThere, isFile, rfl⟩ := Outcome.map_eq_ok_iff.mp isSeen
    obtain ⟨isFileAfter, sameContent⟩ := keeps path member isThere isFile
    rw [nameIn, isFileAfter, configIn?_congr sameContent]
    rfl

end TestAudit.CriteriaSource
