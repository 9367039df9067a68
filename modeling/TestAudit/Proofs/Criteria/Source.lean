import TestAudit.Criteria.Source
import TestAudit.Proofs.Criteria.Config
import TestAudit.Proofs.Criteria.Title
import TestAudit.Proofs.Distinct
import TestAudit.Proofs.Files.Tree
import TestAudit.Proofs.Run.Duration
import TestAudit.Proofs.Search

namespace TestAudit

/-!
# What sources hold

A source holds the criteria that its configuration, its document or its titles define;
where a file is missing or cannot be read, it holds none. The catalog of a source has
these criteria, and without any there is no catalog. Only where it cannot be told whether
there is a file, the source is at fault.

A criterion asks for one test unless a configuration says otherwise, and what a
configuration says is an integer that was read. So the minimums of a catalog have
numerals, whichever source it comes from.
-/

namespace CriteriaSource

variable {tree : Tree} {source : CriteriaSource} {catalog : Catalog}

/-! ## Criteria of a source -/

/-- The configuration in a file, if there is one. -/
def configIn? (tree : Tree) (path : Path) : Option Config :=
  (tree.text? path).bind fun text => (Config.parse text).value.toOption

/-- The configuration of a source. -/
def config? (tree : Tree) : CriteriaSource → Option Config
  | .namedConfig path | .projectConfig path => configIn? tree path
  | .document _ | .testTitles _ => none

/-- The criteria that a source defines. -/
def definitions (tree : Tree) : CriteriaSource → List Criterion
  | .namedConfig path | .projectConfig path => ((configIn? tree path).map criteriaIn).getD []
  | .document path => ((tree.text? path).map Document.criteria).getD []
  | .testTitles titles => Title.criteria titles

/-- What the catalog of a source says about where it comes from. -/
def label : CriteriaSource → Text
  | .namedConfig path => "explicit-config" ++ ':' :: path.name
  | .projectConfig path => "config" ++ ':' :: path.name
  | .document path => "markdown:" ++ path.name
  | .testTitles _ => Provenance.titles.name

/-- The catalog of all that a source defines. -/
def held (tree : Tree) (source : CriteriaSource) : Catalog where
  criteria := source.definitions tree
  projectName := (source.config? tree).bind Config.projectName?
  source := source.label

/-- The check of the file of a source, if it has one. -/
def checked (tree : Tree) : CriteriaSource → Except Tree.Fault Unit
  | .namedConfig path | .projectConfig path | .document path =>
      (tree.isFile path).map fun _ => ()
  | .testTitles _ => .ok ()

theorem toOption_load
    (tree : Tree)
    (path : Path) :
    (Config.load tree path).value.toOption = configIn? tree path := by
  unfold Config.load configIn?
  cases isFile : tree.isFile path with
  | error fault =>
      rw [Tree.text?_of_isFile_ne (by rw [isFile]; nofun)]
      rfl
  | ok isThere =>
      cases isThere with
      | false =>
          rw [Tree.text?_of_isFile_ne (by rw [isFile]; nofun)]
          rfl
      | true =>
          rw [← Tree.toOption_readText]
          cases tree.readText path with
          | error fault => rfl
          | ok text =>
              change ((Config.parse text).value.mapError _).toOption =
                (Config.parse text).value.toOption
              cases (Config.parse text).value <;> rfl

/-- Loading a configuration is at fault for its file just when the check of the file is. -/
theorem load_eq_access_iff
    {path : Path}
    {fault : Tree.Fault} :
    (Config.load tree path).value = .error (.access fault) ↔ tree.isFile path = .error fault := by
  unfold Config.load
  cases tree.isFile path with
  | error other =>
      constructor
      · rintro ⟨⟩
        rfl
      · rintro ⟨⟩
        rfl
  | ok isThere =>
      refine iff_of_false ?_ nofun
      cases isThere with
      | false => nofun
      | true =>
          dsimp only
          cases tree.readText path with
          | error fault => nofun
          | ok text =>
              change (Config.parse text).value.mapError Config.LoadFault.malformed ≠ _
              cases (Config.parse text).value <;> nofun

theorem value_catalogInConfig
    (kind : Text)
    (tree : Tree)
    (path : Path) :
    (catalogInConfig kind tree path).value =
      (tree.isFile path).map fun _ =>
        Catalog.ofCriteria? (((configIn? tree path).map criteriaIn).getD [])
          ((configIn? tree path).bind Config.projectName?) (kind ++ ':' :: path.name) := by
  rw [← toOption_load, catalogInConfig, Logged.value_bind]
  cases isFile : tree.isFile path with
  | error fault =>
      rw [load_eq_access_iff.mpr isFile]
      rfl
  | ok isThere =>
      cases loaded : (Config.load tree path).value with
      | ok config => rfl
      | error fault =>
          cases fault with
          | access fault =>
              rw [load_eq_access_iff.mp loaded] at isFile
              cases isFile
          | _ => rfl

theorem value_catalogInDocument
    (tree : Tree)
    (path : Path) :
    (catalogInDocument tree path).value =
      (tree.isFile path).map fun _ =>
        Catalog.ofCriteria? (((tree.text? path).map Document.criteria).getD []) none
          ("markdown:" ++ path.name) := by
  rw [catalogInDocument]
  cases isFile : tree.isFile path with
  | error fault => rfl
  | ok isThere =>
      cases isThere with
      | false =>
          rw [Tree.text?_of_isFile_ne (by rw [isFile]; nofun)]
          rfl
      | true =>
          rw [← Tree.toOption_readText]
          cases tree.readText path <;> rfl

/-- The catalog of a source is that of its criteria, if its file can be checked. -/
theorem value_catalog
    (source : CriteriaSource)
    (tree : Tree) :
    (source.catalog tree).value =
      (source.checked tree).map fun _ =>
        if source.definitions tree = [] then none else some (source.held tree) := by
  cases source with
  | namedConfig path =>
      -- The warning about a configuration without criteria does not change what it gives.
      have sameValue : (CriteriaSource.catalog tree (.namedConfig path)).value =
          (catalogInConfig "explicit-config" tree path).value := by
        rw [CriteriaSource.catalog, Logged.value_bind]
        rcases (catalogInConfig "explicit-config" tree path).value with fault | _ | catalog <;> rfl
      refine (sameValue.trans (value_catalogInConfig "explicit-config" tree path)).trans ?_
      rw [checked]
      cases tree.isFile path <;> rfl
  | projectConfig path =>
      refine (value_catalogInConfig "config" tree path).trans ?_
      rw [checked]
      cases tree.isFile path <;> rfl
  | document path =>
      refine (value_catalogInDocument tree path).trans ?_
      rw [checked]
      cases tree.isFile path <;> rfl
  | testTitles titles => rfl

theorem catalog_eq_some_iff :
    (source.catalog tree).value = .ok (some catalog) ↔
      source.checked tree = .ok () ∧ source.definitions tree ≠ [] ∧ source.held tree = catalog := by
  rw [value_catalog]
  cases source.checked tree <;> simp [Except.map]

theorem catalog_eq_none_iff :
    (source.catalog tree).value = .ok none ↔
      source.checked tree = .ok () ∧ source.definitions tree = [] := by
  rw [value_catalog]
  cases source.checked tree <;> simp [Except.map]

theorem catalog_eq_error_iff
    {fault : Tree.Fault} :
    (source.catalog tree).value = .error fault ↔ source.checked tree = .error fault := by
  rw [value_catalog, Outcome.map_eq_error_iff]

/-! ## Choice -/

/-- On files that stay as they are, the first catalog is found source by source. -/
theorem firstCatalog_onFiles
    (sources : List CriteriaSource)
    (tree : Tree) :
    ((firstCatalog sources).onFiles tree).value =
      sources.findSomeM? fun source => (source.catalog tree).value := by
  induction sources with
  | nil => rfl
  | cons source others inductionHypothesis =>
      rw [firstCatalog, Session.value_bind_onFiles, Session.value_tree_onFiles,
        Session.value_bind_onFiles, Session.value_lift_onFiles, List.findSomeM?_cons]
      rcases (source.catalog tree).value with fault | _ | catalog
      · rfl
      · exact inductionHypothesis
      · rfl

/-- The first catalog is that of one of the sources, as the files then are. -/
theorem exists_source_of_firstCatalog
    {sources : List CriteriaSource}
    {sight : Sight}
    (found : (firstCatalog sources sight).value = .ok (some catalog)) :
    ∃ source ∈ sources, ∃ tree, (source.catalog tree).value = .ok (some catalog) := by
  induction sources generalizing sight with
  | nil => cases found
  | cons source others inductionHypothesis =>
      rw [firstCatalog, Session.value_bind, Session.value_tree, Session.value_bind,
        Session.value_lift] at found
      rcases isFirst : (source.catalog sight.tree).value with fault | _ | first
      · rw [isFirst] at found
        cases found
      · rw [isFirst] at found
        obtain ⟨later, member, tree, isCatalog⟩ := inductionHypothesis found
        exact ⟨later, List.mem_cons_of_mem source member, tree, isCatalog⟩
      · rw [isFirst] at found
        cases found
        exact ⟨source, List.mem_cons_self, sight.tree, isFirst⟩

/-! ## Criteria of each kind -/

/-- The provenance of the criteria that a source defines. -/
def provenance : CriteriaSource → Provenance
  | .namedConfig _ | .projectConfig _ => .config
  | .document _ => .markdown
  | .testTitles _ => .titles

end CriteriaSource

namespace Criterion

/-- A criterion as the sources of a provenance define it. -/
structure DefinedBy (provenance : Provenance) (criterion : Criterion) : Prop where
  identifier : Title.IsIdentifier criterion.id
  positive : 1 ≤ criterion.minimum
  numeral : Duration.HasNumeral criterion.minimum
  provenance : criterion.provenance = provenance

theorem DefinedBy.wellFormed
    {provenance : Provenance}
    {criterion : Criterion}
    (defined : criterion.DefinedBy provenance) :
    criterion.WellFormed :=
  ⟨defined.identifier.isId, defined.positive⟩

theorem hasNumeral_one : Duration.HasNumeral (1 : Nat) := by
  have numerals := Duration.thousand_le_powerOfTen_digitLimit
  unfold Duration.HasNumeral
  omega

/-- The minimum that a text means is one at least, and has a numeral. -/
theorem minimumOfText_bounds
    (text : Text) :
    1 ≤ minimumOfText text ∧ Duration.HasNumeral (minimumOfText text) := by
  have one := hasNumeral_one
  unfold minimumOfText minimumOfInteger
  split
  next number read =>
    have isBelow := Text.natAbs_lt_of_readInteger read
    unfold Duration.HasNumeral at one ⊢
    omega
  next => exact ⟨le_rfl, one⟩

/-- Without a minimum of its own, a criterion asks for one test. -/
theorem DefinedBy.of_minimum_one
    {provenance : Provenance}
    {criterion : Criterion}
    (identifier : Title.IsIdentifier criterion.id)
    (minimum : criterion.minimum = 1)
    (isDefined : criterion.provenance = provenance) :
    criterion.DefinedBy provenance where
  identifier := identifier
  positive := le_of_eq minimum.symm
  numeral := minimum ▸ hasNumeral_one
  provenance := isDefined

end Criterion

theorem Document.definedBy_of_mem_criteria
    {text : Text}
    {criterion : Criterion}
    (member : criterion ∈ Document.criteria text) :
    criterion.DefinedBy .markdown := by
  obtain ⟨line, _, defines⟩ := List.mem_filterMap.mp (mem_of_mem_distinctBy member)
  unfold Document.criterion? at defines
  split at defines
  · cases defines
  next id rest found =>
    split at defines
    · cases defines
    · dsimp only at defines
      split at defines <;> cases defines
      exact .of_minimum_one (Title.idAtStart?_eq_some found).2 rfl rfl

theorem Title.definedBy_of_mem_criteria
    {titles : List Text}
    {criterion : Criterion}
    (member : criterion ∈ Title.criteria titles) :
    criterion.DefinedBy .titles := by
  obtain ⟨title, _, defines⟩ := List.mem_filterMap.mp (mem_of_mem_distinctBy member)
  obtain ⟨_, described, rfl⟩ := Option.map_eq_some_iff.mp defines
  exact .of_minimum_one (Title.isIdentifier_of_described? described) rfl rfl

namespace CriteriaSource

variable {tree : Tree} {source : CriteriaSource}

theorem definedBy_of_mem_criteriaIn
    {config : Config}
    {criterion : Criterion}
    (member : criterion ∈ criteriaIn config) :
    criterion.DefinedBy .config := by
  obtain ⟨⟨id, description⟩, isDescribed, rfl⟩ := List.mem_map.mp member
  have isId : Title.isId id = true := (List.mem_filter.mp isDescribed).2
  have bounds : 1 ≤ minimumFor config id ∧ Duration.HasNumeral (minimumFor config id) := by
    unfold minimumFor
    split
    · exact Criterion.minimumOfText_bounds _
    · exact ⟨le_rfl, Criterion.hasNumeral_one⟩
  exact ⟨Title.isIdentifier_of_isId isId, bounds.1, bounds.2, rfl⟩

/-- In a configuration that was read, every criterion has an identifier of its own. -/
theorem nodup_criteriaIn
    {text : Text}
    {config : Config}
    (isConfig : (Config.parse text).value = .ok config) :
    ((criteriaIn config).map Criterion.id).Nodup := by
  have sections := Config.sectionsDiffer_parse isConfig
  have different : ((describedIn config).map Prod.fst).Nodup := by
    unfold describedIn
    split
    next entries isSection => exact sections _ (Lookup.mem_of_lookup isSection)
    next => exact nodup_map_distinctBy _ _
    next => exact List.nodup_nil
  rw [criteriaIn, List.map_map]
  exact different.sublist (List.filter_sublist.map Prod.fst)

theorem exists_of_mem_getD_map
    {α β : Type}
    {held : Option α}
    {listed : α → List β}
    {item : β}
    (member : item ∈ (held.map listed).getD []) :
    ∃ value, held = some value ∧ item ∈ listed value := by
  cases held with
  | none => cases member
  | some value => exact ⟨value, rfl, member⟩

/-- Each criterion of a source is as sources of its kind define them. -/
theorem definedBy_of_mem_definitions
    {criterion : Criterion}
    (member : criterion ∈ source.definitions tree) :
    criterion.DefinedBy source.provenance := by
  cases source with
  | namedConfig path =>
      obtain ⟨config, _, inConfig⟩ := exists_of_mem_getD_map member
      exact definedBy_of_mem_criteriaIn inConfig
  | projectConfig path =>
      obtain ⟨config, _, inConfig⟩ := exists_of_mem_getD_map member
      exact definedBy_of_mem_criteriaIn inConfig
  | document path =>
      obtain ⟨text, _, inText⟩ := exists_of_mem_getD_map member
      exact Document.definedBy_of_mem_criteria inText
  | testTitles titles => exact Title.definedBy_of_mem_criteria member

/-- No source defines an identifier twice. -/
theorem nodup_definitions
    (source : CriteriaSource)
    (tree : Tree) :
    ((source.definitions tree).map Criterion.id).Nodup := by
  have inConfig (path : Path) :
      ((((configIn? tree path).map criteriaIn).getD []).map Criterion.id).Nodup := by
    cases found : configIn? tree path with
    | none => exact List.nodup_nil
    | some config =>
        obtain ⟨text, _, isConfig⟩ := Option.bind_eq_some_iff.mp found
        exact nodup_criteriaIn (Outcome.toOption_eq_some_iff.mp isConfig)
  cases source with
  | namedConfig path => exact inConfig path
  | projectConfig path => exact inConfig path
  | document path =>
      change ((((tree.text? path).map Document.criteria).getD []).map Criterion.id).Nodup
      cases tree.text? path with
      | none => exact List.nodup_nil
      | some text => exact nodup_map_distinctBy _ _
  | testTitles titles => exact nodup_map_distinctBy _ _

end CriteriaSource

/-! ## Numerals of minimums -/

/-- The minimums of the criteria have numerals. -/
def Catalog.HasNumerals (catalog : Catalog) : Prop :=
  ∀ criterion ∈ catalog.criteria, Duration.HasNumeral criterion.minimum

/-- Whichever source gives the catalog of a project, its minimums have numerals. -/
theorem CriteriaSource.hasNumerals_of_resolve
    {project : Project}
    {titles : List Text}
    {config : Text}
    {sight : Sight}
    {catalog : Catalog}
    (resolved : (resolve project titles config sight).value = .ok catalog) :
    catalog.HasNumerals := by
  rw [resolve, Session.value_bind] at resolved
  rcases found : (firstCatalog (ofProject project titles config) sight).value with
    fault | _ | first
  · rw [found] at resolved
    cases resolved
  · rw [found] at resolved
    cases resolved
    exact List.forall_mem_nil _
  · rw [found] at resolved
    cases resolved
    obtain ⟨_, _, _, isCatalog⟩ := exists_source_of_firstCatalog found
    obtain ⟨_, _, rfl⟩ := catalog_eq_some_iff.mp isCatalog
    exact fun criterion member => (definedBy_of_mem_definitions member).numeral

end TestAudit
