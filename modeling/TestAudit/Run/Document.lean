import TestAudit.Files.Tree
import TestAudit.Run.Results

namespace TestAudit.Results

/-!
# Results files

A results file holds one JSON object. Its records are read in two steps: the file
as a document, and the document as records.
-/

/-- Why a file gives no records. -/
inductive FileFault where
  | unreadable (path : Path) (fault : Tree.TextFault)
  | syntaxFault (path : Path) (fault : Json.SyntaxFault) (place : Json.Place)
  | notObject (path : Path)
  | integerTooLong (digits : Nat)
  | reading (fault : ReadingFault)
  deriving Repr

namespace FileFault

/-- The message for a file that gives no records. -/
def message : FileFault → Text
  | .unreadable path fault =>
      "Cannot read test results " ++ path.toText ++ ": " ++ fault.message
  | .syntaxFault path fault place =>
      "Test results " ++ path.toText ++ " is not valid JSON: " ++ fault.message ++
        " (line " ++ Text.ofNat place.line ++ ", column " ++ Text.ofNat place.column ++ ")"
  | .notObject path =>
      "Test results " ++ path.toText ++ " must be a JSON object with a 'suites' list"
  | .integerTooLong digits => Text.NumeralFault.tooLongMessage digits
  | .reading (.malformed location expected found) => malformedMessage location expected found
  | .reading .infiniteDuration => Json.IntegerFault.infinite.message

end FileFault

/-- The document in a results file. -/
def load (tree : Tree) (path : Path) : Except FileFault Json.Value := do
  let text ← (tree.readText path).mapError (.unreadable path)
  match Json.parse text with
  | .error (.malformed fault place) => throw (.syntaxFault path fault place)
  | .error (.integerTooLong digits) => throw (.integerTooLong digits)
  | .ok (.object members) => return .object members
  | .ok _ => throw (.notObject path)

/-- The records in a results file. -/
def loadRecords (tree : Tree) (path : Path) : Except FileFault (List TestRecord) := do
  let document ← load tree path
  (records document).mapError .reading

end TestAudit.Results
