import TestAudit.Files.Change
import TestAudit.Log

namespace TestAudit

/-!
# Log files

A log file takes all log lines of a run, behind what it holds already. It is
opened before the run begins, together with the directories above it, and its
first line tells its own path.
-/

/-- A log file, and the moment that its lines begin with. -/
structure LogFile where
  path : Path
  moment : Text
  deriving Repr, DecidableEq

namespace LogFile

/-- The name under which the log file itself is announced. -/
def logSource : Text :=
  "testwarden"

/-- The first line of a run in its log file. -/
def openingLine (file : LogFile) : LogLine where
  source := logSource
  level := .debug
  message := "Log file: " ++ file.path.toText

/-- The tree with log lines at the end of a log file. -/
def append (file : LogFile) (tree : Tree) (lines : List LogLine) : Except Tree.Fault Tree :=
  tree.append (file.path.straightened tree.workingPath)
    (Text.Utf8.encode (lines.flatMap (·.fileText file.moment)))

/-- The tree with a log file that a run has opened, and the fault that kept it closed. -/
def start (file : LogFile) (tree : Tree) : Tree × Except Tree.Fault Unit :=
  match tree.ensureDirectory file.path.parent with
  | (changed, .error fault) => (changed, .error fault)
  | (changed, .ok ()) =>
      match file.append changed [file.openingLine] with
      | .ok opened => (opened, .ok ())
      | .error fault => (changed, .error fault)

/-- The tree with log lines in a log file that was opened. -/
def record (file : LogFile) (tree : Tree) (lines : List LogLine) : Tree :=
  (file.append tree lines).toOption.getD tree

end LogFile

end TestAudit
