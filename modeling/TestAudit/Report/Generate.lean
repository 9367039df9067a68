import TestAudit.Criteria.Source
import TestAudit.Files.Change
import TestAudit.Report.DefaultTemplate
import TestAudit.Report.Markup
import TestAudit.Run.Document
import TestAudit.Session

namespace TestAudit.Report

/-!
# Writing a report

A report is written in two steps. Preparing it reads everything that is needed
and renders the document without touching a file; storing it creates the missing
directories and writes the one output file. So whatever is wrong with the inputs
is noticed before anything is changed.
-/

/-- What the user asks for; an empty text asks for the conventional choice. -/
structure Request where
  results : Text := []
  template : Text := []
  output : Text := []
  config : Text := []
  deriving Repr, DecidableEq

/-- The name under which writing a report writes to the log. -/
def generationSource : Text :=
  "testwarden.evidence.report_generator"

/-- The places where a project has its results by convention, the preferred one first. -/
def conventionalResults : List Text :=
  [ "tests/report/test-results.json",
    "test-results/results.json",
    "test-results.json",
    "playwright-report/test-results.json",
    "reports/test-results.json" ]

/-- The place where a report is written by convention. -/
def conventionalOutput : Text :=
  "tests/report/evidence-report.html"

/-! ## Faults -/

/-- Why no report is written. -/
inductive Fault where
  /-- It cannot be told whether a file or directory is there. -/
  | access (fault : Tree.Fault)
  | resultsMissing (named : Text)
  | noResults (searched : List Text)
  | templateMissing (path : Path)
  | results (fault : Results.FileFault)
  | invalidTag (invalid : InvalidTag)
  | template (fault : Tree.TextFault)
  | duration (fault : Duration.Fault)
  | output (fault : Tree.Fault)
  deriving Repr

namespace Fault

/-- The message for a report that is not written. -/
def message : Fault → Text
  | .access fault => fault.message
  | .resultsMissing named => "Results file not found: " ++ named
  | .noResults searched =>
      "No test results found. Run tests with the JSON reporter first.\nSearched: " ++
        Text.joinWith ", ".toList searched
  | .templateMissing path => "Report template not found: " ++ path.toText
  | .results fault => fault.message
  | .invalidTag invalid => "Not a criterion: " ++ invalid.tag
  | .template fault => fault.message
  | .duration fault => fault.message
  | .output fault => fault.message

/-- Whether a fault lies with what the user gave, and is told as a message of its own. -/
def isExpected : Fault → Bool
  | .resultsMissing _ | .noResults _ | .templateMissing _ => true
  | .results (.integerTooLong _) | .results (.reading .infiniteDuration) => false
  | .results _ => true
  | _ => false

end Fault

/-! ## Inputs -/

/-- The results file: the named one, or the first conventional one that is there. -/
def findResults (project : Project) (tree : Tree) (named : Text) : Except Fault Path :=
  if named ≠ [] then
    let path := project.resolve named
    match tree.isFile path with
    | .ok true => .ok path
    | .ok false => .error (.resultsMissing named)
    | .error fault => .error (.access fault)
  else
    match (conventionalResults.map project.resolve).findM? tree.isFile with
    | .ok (some path) => .ok path
    | .ok none => .error (.noResults conventionalResults)
    | .error fault => .error (.access fault)

/-- A template: the default one, or a file. -/
inductive TemplateChoice where
  | default
  | file (path : Path)
  deriving Repr, DecidableEq

namespace TemplateChoice

/-- The text of a template. -/
def read (tree : Tree) : TemplateChoice → Except Fault Text
  | .default => .ok defaultTemplate
  | .file path => (tree.readText path).mapError .template

end TemplateChoice

/-- The template: the named file if there is one, else the default one. -/
def findTemplate (project : Project) (tree : Tree) (named : Text) : Except Fault TemplateChoice :=
  if named = [] then
    .ok .default
  else
    let path := project.resolve named
    match tree.isFile path with
    | .ok true => .ok (.file path)
    | .ok false => .error (.templateMissing path)
    | .error fault => .error (.access fault)

/-- The path of the document: the named one, or the conventional one. -/
def outputPath (project : Project) (named : Text) : Path :=
  project.resolve (if named = [] then conventionalOutput else named)

/-! ## Preparing -/

/-- A report that is ready to be written. -/
structure Prepared where
  path : Path
  report : Report
  document : Text
  /-- The duration of the run as it is shown. -/
  duration : Text
  deriving Repr

/-- What the log says about the results file. -/
def resultsLine (project : Project) (tree : Tree) (path : Path) : LogLine where
  source := generationSource
  level := .info
  message := "Results: " ++ project.relative tree.workingPath path

/-- The prepared report with the text of a template. -/
def rendered (path : Path) (report : Report) (template : Text) :
    Except Duration.Fault Prepared := do
  let document ← report.document template
  let duration ← Duration.show? report.duration
  return { path, report, document, duration }

/-- The prepared report on the records of a run. -/
def prepareRecords
    (project : Project)
    (timestamp : Text)
    (request : Request)
    (template : TemplateChoice)
    (records : List TestRecord) :
    Session (Except Fault Prepared) := do
  Session.tell (Results.countLines records)
  let catalog := CriteriaSource.resolve project (records.map (·.title)) request.config
  catalog.onward .access fun catalog =>
    Session.onward .access (do Image.ofProject project (← Session.tree)) fun images =>
      (CriteriaSource.projectName project catalog request.config).onward .access fun name =>
        Session.onward .invalidTag (compile name timestamp records catalog images) fun report => do
          let tree ← Session.tree
          return do
            let text ← template.read tree
            (rendered (outputPath project request.output) report text).mapError .duration

/-- The prepared report; no file is changed. -/
def prepare (project : Project) (timestamp : Text) (request : Request) :
    Session (Except Fault Prepared) := do
  let tree ← Session.tree
  match findResults project tree request.results with
  | .error fault => return .error fault
  | .ok path =>
      match findTemplate project tree request.template with
      | .error fault => return .error fault
      | .ok template =>
          Session.tell [resultsLine project tree path]
          let tree ← Session.tree
          match Results.loadRecords tree path with
          | .error fault => return .error (.results fault)
          | .ok records => prepareRecords project timestamp request template records

/-! ## Storing -/

namespace Prepared

/-- The tree with the document and the directories it needs, and the fault that stopped writing. -/
def store (prepared : Prepared) (tree : Tree) : Tree × Except Tree.Fault Unit :=
  match tree.ensureDirectory prepared.path.parent with
  | (changed, .error fault) => (changed, .error fault)
  | (changed, .ok ()) =>
      match changed.write prepared.path (Text.Utf8.encode prepared.document) with
      | .ok written => (written, .ok ())
      | .error fault => (changed, .error fault)

/-- What is printed about a report that was written. -/
def summary (prepared : Prepared) : Text :=
  let report := prepared.report
  markupLines [
    "Evidence report generated: " ++ prepared.path.toText,
    "  Total: " ++ Text.ofNat report.total ++ " | Passed: " ++ Text.ofNat report.passed ++
      " | Failed: " ++ Text.ofNat report.failed ++ " | Skipped: " ++
      Text.ofNat report.skipped ++ " | Duration: " ++ prepared.duration,
    "  Screenshots embedded: " ++ Text.ofNat report.imageCount,
    "  ACs covered: " ++ Text.ofNat report.coveredCount ++ "/" ++
      Text.ofNat report.coverage.length]

end Prepared

/-- A report is prepared and then stored. -/
def generate
    (project : Project)
    (tree : Tree)
    (timestamp : Text)
    (request : Request) :
    Logged (Tree × Except Fault Prepared) := do
  match ← (prepare project timestamp request).onFiles tree with
  | .error fault => return (tree, .error fault)
  | .ok prepared =>
      match prepared.store tree with
      | (changed, .ok ()) => return (changed, .ok prepared)
      | (changed, .error fault) => return (changed, .error (.output fault))

end TestAudit.Report
