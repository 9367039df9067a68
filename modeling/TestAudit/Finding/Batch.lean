import TestAudit.Files.Project
import TestAudit.Finding.Scan
import TestAudit.Finding.Summary
import TestAudit.Session

namespace TestAudit.Scan

/-!
# Scanning several files

Every path counts as one file. A file that cannot be read is noted and passed
over; a violation that an earlier file of the same label already had is not
repeated.
-/

/-- The label of a path in reports. -/
def labelOf (project : Project) (tree : Tree) (path : Path) : Text :=
  project.relative tree.workingPath path

/-- The violations in one file. -/
def scanFile
    (project : Project)
    (tree : Tree)
    (path : Path) :
    Except Tree.Fault (Logged (List Violation)) := do
  let text ← tree.readLenient path
  return scan (labelOf project tree path) text (Language.ofFileName? path.name)

/-- What the log says about a file that cannot be read. -/
def unreadableLine (path : Path) (fault : Tree.Fault) : LogLine where
  source := logSource
  level := .warning
  message := "Skipping unreadable file " ++ path.toText ++ ": " ++ fault.message

/-- The summary of one path alone. -/
def summaryOf (project : Project) (tree : Tree) (path : Path) : Logged ScanSummary :=
  match scanFile project tree path with
  | .ok found => (fun violations => { files := 1, violations }) <$> found
  | .error fault => {
      log := [unreadableLine path fault]
      value := {
        files := 1
        unreadable := [{ file := labelOf project tree path, problem := fault.message }]
      }
    }

/-- The summaries of several paths, each alone, in their order. -/
def summariesOf (project : Project) : List Path → Session (List ScanSummary)
  | [] => pure []
  | path :: paths => do
      let tree ← Session.tree
      let first ← summaryOf project tree path
      let others ← summariesOf project paths
      return first :: others

/-- The summary of several paths, in their order. -/
def scanFiles (project : Project) (paths : List Path) : Session ScanSummary := do
  let summaries ← summariesOf project paths
  return {
    files := paths.length
    violations := distinctBy Violation.key (summaries.flatMap (·.violations))
    unreadable := summaries.flatMap (·.unreadable)
  }

/-- The summary of paths that a user wrote; the first that cannot lead anywhere ends the scan. -/
def scanNamed (project : Project) (paths : List Path) :
    Session (Except Tree.Fault ScanSummary) := do
  let summary ← scanFiles project (paths.takeWhile (·.canLead))
  match paths.dropWhile (·.canLead) with
  | [] => return .ok summary
  | path :: _ => return .error { reason := .nullCharacter, path }

end TestAudit.Scan
