import TestAudit.Finding.Violation
import TestAudit.Json.Printer

namespace TestAudit

/-!
# Summaries of a scan

The outcome of scanning several files, and its two presentations: a JSON object
for machines, and lines for people that show critical findings with their
context, then warnings, then the verdict.
-/

/-- A file that could not be read, and why. -/
structure UnreadableFile where
  file : Text
  problem : Text
  deriving Repr, DecidableEq

/-- What a run over several files found. -/
structure ScanSummary where
  files : Int := 0
  violations : List Violation := []
  unreadable : List UnreadableFile := []
  deriving Repr, DecidableEq

/-- The verdict of a run. -/
inductive Verdict where
  | clean
  | warnings
  | blocked
  deriving Repr, DecidableEq

namespace Verdict

/-- The name of a verdict in reports. -/
def name : Verdict → Text
  | .clean => "clean"
  | .warnings => "warnings"
  | .blocked => "blocked"

end Verdict

/-- What to do about a critical finding. -/
def fixSuggestion : List Text :=
  [ "Remove this code. If the application is broken, the test should FAIL",
    "and document the defect, not work around it." ]

namespace ScanSummary

/-- The critical findings. -/
def critical (summary : ScanSummary) : List Violation :=
  summary.violations.filter (·.severity = .critical)

/-- The findings that ask for a review. -/
def warnings (summary : ScanSummary) : List Violation :=
  summary.violations.filter (·.severity = .warning)

/-- A run is blocked by a critical finding; otherwise warnings count. -/
def verdict (summary : ScanSummary) : Verdict :=
  if summary.critical ≠ [] then .blocked
  else if summary.warnings ≠ [] then .warnings
  else .clean

/-- The exit code of a run: one when it is blocked. -/
def exitCode (summary : ScanSummary) : Nat :=
  if summary.critical ≠ [] then 1 else 0

/-- A file that could not be read as a JSON object. -/
def unreadableJson (unreadable : UnreadableFile) : Json.Value :=
  .object [("file", .string unreadable.file), ("error", .string unreadable.problem)]

/-- The member that lists the unreadable files, if there are any. -/
def unreadableMember (summary : ScanSummary) : List (Text × Json.Value) :=
  if summary.unreadable = [] then
    []
  else
    [("unreadable", .array (summary.unreadable.map unreadableJson))]

/-- The members that every summary has. -/
def countMembers (summary : ScanSummary) : List (Text × Json.Value) :=
  [ ("files", .integer summary.files),
    ("violations", .array (summary.violations.map Violation.toJson)),
    ("critical", .integer summary.critical.length),
    ("warnings", .integer summary.warnings.length),
    ("status", .string summary.verdict.name) ]

/-- The summary as a JSON object. -/
def toJson (summary : ScanSummary) : Json.Value :=
  .object (summary.countMembers ++ summary.unreadableMember)

/-! ## Presentation for people -/

/-- The lines about one file that could not be read. -/
def unreadableFileLines (unreadable : UnreadableFile) : List Text :=
  ["  [UNREADABLE] " ++ unreadable.file, "    " ++ unreadable.problem]

/-- The lines about the files that could not be read, if there are any. -/
def unreadableLines (summary : ScanSummary) : List Text :=
  if summary.unreadable = [] then
    []
  else
    ("  UNREADABLE FILES (not scanned): " ++ Text.ofNat summary.unreadable.length) :: [] ::
      summary.unreadable.flatMap unreadableFileLines ++ [[]]

/-- The place of a finding: its file and line. -/
def placeText (violation : Violation) : Text :=
  violation.file ++ ':' :: Text.ofInt violation.line

/-- The lines of advice under a critical finding. -/
def suggestionLines : List Text :=
  match fixSuggestion with
  | [] => []
  | first :: others =>
      ("    Fix: " ++ first) :: others.map fun (line : Text) => "         " ++ line

/-- The lines of context under a critical finding. -/
def contextLines (violation : Violation) : List Text :=
  (violation.context.splitOn '\n').map fun (line : Text) => "      " ++ line

/-- The lines about one critical finding. -/
def criticalLines (suggestions : Bool) (violation : Violation) : List Text :=
  let heading : List Text :=
    [ "  [CRITICAL] " ++ placeText violation,
      "    Violation: " ++ violation.description,
      "    Rule: " ++ violation.commandment,
      "    Context:" ]
  heading ++ contextLines violation ++ (if suggestions then suggestionLines else []) ++ [[]]

/-- The lines about one warning. -/
def warningLines (violation : Violation) : List Text :=
  [ "  [WARNING] " ++ placeText violation,
    "    " ++ violation.description,
    "    " ++ violation.commandment,
    [] ]

/-- The lines about a group of findings under a heading, if there are any. -/
def groupLines
    (heading : Text)
    (describe : Violation → List Text)
    (group : List Violation) :
    List Text :=
  if group = [] then
    []
  else
    (heading ++ Text.ofNat group.length) :: [] :: group.flatMap describe

/-- The lines that count the findings of a report. -/
def totalLines (summary : ScanSummary) : List Text :=
  [ "---",
    "Total violations: " ++ Text.ofNat summary.violations.length ++ " (" ++
      Text.ofNat summary.critical.length ++ " critical, " ++
      Text.ofNat summary.warnings.length ++ " warnings)",
    [] ]

/-- The lines that close a report with findings. -/
def verdictLines (summary : ScanSummary) : List Text :=
  if summary.critical ≠ [] then
    [ "BLOCKED: Tests cannot run until all critical Rule Zero violations are removed.",
      "A test that modifies the application to make itself pass is worse than no test at all.",
      [] ]
  else
    ["WARNINGS ONLY: Tests may proceed, but flagged items need manual review."]

/-- The lines of a report without findings. -/
def passLines : List Text :=
  [ "  PASS: No Rule Zero violations detected.",
    [],
    "All test files respect application integrity.",
    [] ]

/-- The lines about the findings, critical ones first. -/
def findingLines (summary : ScanSummary) (suggestions : Bool) : List Text :=
  groupLines "  CRITICAL VIOLATIONS: " (criticalLines suggestions) summary.critical ++
    groupLines "  WARNINGS (manual review needed): " warningLines summary.warnings ++
    summary.totalLines ++ summary.verdictLines

/-- The lines of the report for people. -/
def humanLines (summary : ScanSummary) (suggestions : Bool) : List Text :=
  summary.unreadableLines ++
    (if summary.violations = [] then passLines else summary.findingLines suggestions)

/-- The report for people: each line with a line feed. -/
def human (summary : ScanSummary) (suggestions : Bool) : Text :=
  (summary.humanLines suggestions).flatMap (· ++ ['\n'])

end ScanSummary

end TestAudit
