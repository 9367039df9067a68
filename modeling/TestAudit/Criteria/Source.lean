import TestAudit.Criteria.Config
import TestAudit.Criteria.Document
import TestAudit.Files.Project
import TestAudit.Session

namespace TestAudit

/-!
# Sources of criteria

The catalog of a project comes from the first source that has at least one
criterion; later sources are not looked at. A source that cannot be read counts
as one without criteria, with a warning in the log. A source of which it cannot be
told whether there is a file ends the choice.
-/

/-- Where criteria can come from. -/
inductive CriteriaSource where
  /-- A configuration that the user named. -/
  | namedConfig (path : Path)
  /-- The configuration of the project. -/
  | projectConfig (path : Path)
  /-- A document. -/
  | document (path : Path)
  /-- The titles of the tests. -/
  | testTitles (titles : List Text)
  deriving Repr, DecidableEq

namespace CriteriaSource

/-- The name under which choosing a source writes to the log. -/
def logSource : Text :=
  "testwarden.evidence.ac_resolver"

/-- A warning about a source. -/
def warning (message : Text) : LogLine where
  source := logSource
  level := .warning
  message := message

/-! ## Configurations -/

/-- The key whose section defines criteria. -/
def criteriaKey : Text :=
  "acceptance-criteria"

/-- The key whose section gives minimums. -/
def minimumKey : Text :=
  "minimum-tests"

/-- Identifiers and descriptions in a configuration: nested keys, or items that read like titles. -/
def describedIn (config : Config) : List (Text × Text) :=
  match config.lookup criteriaKey with
  | some (.map entries) => entries
  | some (.items items) => distinctBy Prod.fst (items.filterMap Title.described?)
  | _ => []

/-- The minimums in a configuration. -/
def minimumsIn (config : Config) : List (Text × Text) :=
  match config.lookup minimumKey with
  | some (.map entries) => entries
  | _ => []

/-- The minimum that a configuration gives for an identifier. -/
def minimumFor (config : Config) (id : Text) : Nat :=
  match (minimumsIn config).lookup id with
  | some text => Criterion.minimumOfText text
  | none => 1

/-- The criteria that a configuration defines. -/
def criteriaIn (config : Config) : List Criterion :=
  ((describedIn config).filter fun (id, _) => Title.isId id).map fun (id, description) => {
    id
    description
    minimum := minimumFor config id
    provenance := .config
  }

/-- What the log says about the keys that are no identifiers. -/
def strayKeyLines (path : Path) (config : Config) : List LogLine :=
  ((describedIn config).filter fun (id, _) => !Title.isId id).map fun (key, _) =>
    warning ("Ignoring config key '" ++ key ++ "' in " ++ path.toText ++
      ": not an AC-<number> id")

/-- The catalog in a configuration file, named after a kind of source and the file. -/
def catalogInConfig (kind : Text) (tree : Tree) (path : Path) :
    Logged (Except Tree.Fault (Option Catalog)) := do
  match ← Config.load tree path with
  | .error (.access fault) => return .error fault
  | .error (.missing _) => return .ok none
  | .error fault =>
      Logged.tell [warning ("Ignoring malformed config " ++ path.toText ++ ": " ++ fault.message)]
      return .ok none
  | .ok config =>
      Logged.tell (strayKeyLines path config)
      return .ok (Catalog.ofCriteria? (criteriaIn config) config.projectName?
        (kind ++ ':' :: path.name))

/-! ## Documents and titles -/

/-- The catalog in a document. -/
def catalogInDocument (tree : Tree) (path : Path) :
    Logged (Except Tree.Fault (Option Catalog)) :=
  match tree.isFile path with
  | .error fault => pure (.error fault)
  | .ok false => pure (.ok none)
  | .ok true =>
      match tree.readText path with
      | .ok text =>
          pure (.ok (Catalog.ofCriteria? (Document.criteria text) none ("markdown:" ++ path.name)))
      | .error fault => do
          Logged.tell [warning ("Cannot read " ++ path.toText ++ ": " ++ fault.message)]
          return .ok none

/-- The catalog in test titles. -/
def catalogInTitles (titles : List Text) : Option Catalog :=
  Catalog.ofCriteria? (Title.criteria titles) none Provenance.titles.name

/-! ## Choice -/

/-- The catalog that a source gives. -/
def catalog (tree : Tree) : CriteriaSource → Logged (Except Tree.Fault (Option Catalog))
  | .namedConfig path => do
      match ← catalogInConfig "explicit-config" tree path with
      | .ok none =>
          Logged.tell
            [warning ("Config file " ++ path.toText ++ " did not contain AC definitions.")]
          return .ok none
      | found => return found
  | .projectConfig path => catalogInConfig "config" tree path
  | .document path => catalogInDocument tree path
  | .testTitles titles => pure (.ok (catalogInTitles titles))

/-- The catalog of the first source that gives one; the sources before it may not fail. -/
def firstCatalog : List CriteriaSource → Session (Except Tree.Fault (Option Catalog))
  | [] => pure (.ok none)
  | source :: sources => do
      let tree ← Session.tree
      match ← source.catalog tree with
      | .ok none => firstCatalog sources
      | found => return found

/-- The documents of a project that define criteria by convention. -/
def conventionalDocuments : List Text :=
  [ "docs/acceptance-criteria.md", "docs/acceptance_criteria.md", "acceptance-criteria.md" ]

/-- The sources of a project in their order; an empty text names no configuration. -/
def ofProject (project : Project) (titles : List Text) (config : Text) : List CriteriaSource :=
  (if config = [] then [] else [.namedConfig (project.resolve config)]) ++
    .projectConfig (project.resolve Config.fileName) ::
    conventionalDocuments.map (fun document => .document (project.resolve document)) ++
    [.testTitles titles]

/-- What the log says about the catalog that was chosen. -/
def chosenLine (catalog : Catalog) : LogLine where
  source := logSource
  level := .info
  message :=
    "AC definitions: " ++ Text.ofNat catalog.criteria.length ++ " from " ++ catalog.source

/-- What the log says when no source gives a catalog. -/
def noCatalogLine : LogLine :=
  warning "No AC definitions found. Report will group tests by detected AC prefixes."

/-- The catalog of a project, which is empty when no source has a criterion. -/
def resolve (project : Project) (titles : List Text) (config : Text) :
    Session (Except Tree.Fault Catalog) := do
  match ← firstCatalog (ofProject project titles config) with
  | .error fault => return .error fault
  | .ok (some catalog) =>
      Session.tell [chosenLine catalog]
      return .ok catalog
  | .ok none =>
      Session.tell [noCatalogLine]
      return .ok { source := "none" }

/-! ## Names of projects -/

/-- The first project name that configuration files give. -/
def firstProjectName? : List Path → Session (Except Tree.Fault (Option Text))
  | [] => pure (.ok none)
  | path :: paths => do
      let tree ← Session.tree
      match ← Config.load tree path with
      | .error (.access fault) => return .error fault
      | loaded =>
          match loaded.toOption.bind (·.projectName?) with
          | some name => return .ok (some name)
          | none => firstProjectName? paths

/-- The configuration files of a project in their order. -/
def configPaths (project : Project) (config : Text) : List Path :=
  (if config = [] then [] else [project.resolve config]) ++ [project.resolve Config.fileName]

/-- The name of a project: that of its catalog or configuration, else that of its directory. -/
def projectName (project : Project) (catalog : Catalog) (config : Text) :
    Session (Except Tree.Fault Text) :=
  match catalog.projectName with
  | some (c :: rest) => pure (.ok (c :: rest))
  | _ => do
      let name? ← firstProjectName? (configPaths project config)
      return name?.map (·.getD project.root.name)

end CriteriaSource

end TestAudit
