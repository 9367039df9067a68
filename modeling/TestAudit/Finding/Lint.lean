import TestAudit.Finding.Batch
import TestAudit.Finding.Discovery

namespace TestAudit

/-!
# Linting

A lint run finds the test files, scans them, and presents the summary for people
or for machines. It fails when something critical was found, or when a file or a
directory that was named is not there.
-/

/-- What a run prints, and how it ends. -/
structure Outcome where
  exitCode : Nat
  stdout : Text := []
  stderr : Text := []
  deriving Repr, DecidableEq

namespace Lint

/-- The name under which linting writes to the log. -/
def logSource : Text :=
  "testwarden.integrity.linter"

/-- What a lint run is asked for; an empty text names nothing. -/
structure Request where
  file : Text := []
  directory : Text := []
  json : Bool := false
  suggestions : Bool := false
  deriving Repr, DecidableEq

/-- Lines as they are printed. -/
def printed (lines : List Text) : Text :=
  lines.flatMap (· ++ ['\n'])

/-- What stands above a report for people. -/
def banner : List Text :=
  [[], "=== Test Integrity Linter: Rule Zero Enforcement ===", []]

/-- The JSON object of a run that found nothing to look at. -/
def problemJson (problem : Text) : Json.Value :=
  .object [
    ("error", .string problem),
    ("violations", .array []),
    ("files", .integer 0)]

/-- The outcome of a run in which what was named is not there. -/
def faultOutcome (request : Request) (fault : Discovery.Fault) : Outcome :=
  if request.json then
    { exitCode := 1, stdout := printed [(problemJson fault.message).oneLine] }
  else
    { exitCode := 1, stdout := printed banner, stderr := printed ["Error: " ++ fault.message] }

/-- The outcome of a run in a project without test directories. -/
def noDirectoryOutcome (request : Request) : Outcome where
  exitCode := 0
  stdout :=
    if request.json then
      printed [(problemJson "No test directories found").oneLine]
    else
      printed banner ++ printed ["No test directories found. Use --dir or --file to specify."]

/-- The outcome of a run without test files. -/
def noFileOutcome (request : Request) : Outcome where
  exitCode := 0
  stdout :=
    if request.json then
      printed [(ScanSummary.toJson {}).oneLine]
    else
      printed banner ++ printed ["No test files found."]

/-- The outcome of a run that scanned files. -/
def summaryOutcome (request : Request) (files : List Path) (summary : ScanSummary) : Outcome where
  exitCode := summary.exitCode
  stdout :=
    if request.json then
      printed [summary.toJson.indented]
    else
      printed banner ++
        printed ["Scanning " ++ Text.ofNat files.length ++ " test file(s)...", []] ++
        summary.human request.suggestions

/-- What the log says about a summary. -/
def summaryLine (summary : ScanSummary) : LogLine where
  source := logSource
  level := .debug
  message :=
    "Scanned " ++ Text.ofInt summary.files ++ " file(s): " ++
      Text.ofNat summary.critical.length ++ " critical, " ++
      Text.ofNat summary.warnings.length ++ " warnings, " ++
      Text.ofNat summary.unreadable.length ++ " unreadable"

/-- The outcome of scanning files. -/
def scanned (project : Project) (request : Request) (files : List Path) : Session Outcome := do
  let summary ← Scan.scanFiles project files
  Session.tell [summaryLine summary]
  return summaryOutcome request files summary

/-- A lint run, which fails if what it needs to know of a file or directory cannot be told. -/
def run (project : Project) (request : Request) : Session (Except Tree.Fault Outcome) := do
  let tree ← Session.tree
  match ← Discovery.discover project tree request.file request.directory with
  | .error (.access fault) => return .error fault
  | .error fault => return .ok (faultOutcome request fault)
  | .ok none => return .ok (noDirectoryOutcome request)
  | .ok (some []) => return .ok (noFileOutcome request)
  | .ok (some files) => .ok <$> scanned project request files

/-- A lint run over one edited file; a file that is no test file passes silently. -/
def runEdited (project : Project) (file : Text) : Session (Except Tree.Fault Outcome) :=
  if isTestFileName (Path.ofText file).name then
    run project { file }
  else
    pure (.ok { exitCode := 0 })

end Lint

end TestAudit
