import TestAudit.Criteria.Title
import TestAudit.Json.Integer
import TestAudit.Json.Parser
import TestAudit.Json.Printer
import TestAudit.Log
import TestAudit.Run.Record
import TestAudit.Text.Colour
import TestAudit.Text.Lines
import TestAudit.Text.Utf8

namespace TestAudit.Results

/-!
# Results of a test run

A results document is a JSON object with suites; a suite has specs and further
suites. A spec gives one record, read from the attempts of its first test: the
final attempt decides status, duration, output and errors, earlier ones only
count. Specs without tests, and tests without attempts, give none.

A value of the wrong shape is a fault that names its location in the document.
-/

/-! ## Locations -/

/-- One step down into a document. -/
inductive Step where
  | member (name : Text)
  | item (index : Nat)
  deriving Repr, DecidableEq

/-- The way from the root of a document to a value, the last step first. -/
abbrev Location := List Step

namespace Location

/-- The location of a member of an object. -/
def member (location : Location) (name : Text) : Location :=
  .member name :: location

/-- The location of an item of an array. -/
def item (location : Location) (index : Nat) : Location :=
  .item index :: location

/-- A location as messages give it: members after dots, items in brackets. -/
def toText : Location → Text
  | [] => []
  | [.member name] => name
  | .member name :: outer => toText outer ++ '.' :: name
  | .item index :: outer => toText outer ++ '[' :: Text.ofNat index ++ [']']

end Location

/-! ## Faults -/

/-- The shapes that a value can be required to have. -/
inductive Shape where
  | list
  | object
  | string
  | number
  deriving Repr, DecidableEq

namespace Shape

/-- The words for a shape. -/
def name : Shape → Text
  | .list => "a list"
  | .object => "an object"
  | .string => "a string"
  | .number => "a number"

end Shape

/-- Why a document gives no records. -/
inductive ReadingFault where
  /-- A value has the wrong shape. -/
  | malformed (location : Location) (expected : Shape) (found : Json.Value)
  /-- A duration is an infinite number. -/
  | infiniteDuration
  deriving Repr

/-- The message for a value of the wrong shape. -/
def malformedMessage (location : Location) (expected : Shape) (found : Json.Value) : Text :=
  "Malformed test results: " ++ location.toText ++ " must be " ++ expected.name ++ ", got " ++
    found.kindName

/-! ## Values of a required shape -/

/-- The items of an array; null counts as an empty one. -/
def asList (location : Location) : Json.Value → Except ReadingFault (List Json.Value)
  | .null => .ok []
  | .array items => .ok items
  | other => .error (.malformed location .list other)

/-- An object. -/
def asObject (location : Location) : Json.Value → Except ReadingFault Json.Value
  | .object members => .ok (.object members)
  | other => .error (.malformed location .object other)

/-- A string; null counts as the empty one. -/
def asText (location : Location) : Json.Value → Except ReadingFault Text
  | .null => .ok []
  | .string text => .ok text
  | other => .error (.malformed location .string other)

/-- A duration; null and the empty string count as none, truth values are refused. -/
def asDuration (location : Location) (value : Json.Value) : Except ReadingFault Int :=
  match value with
  | .null | .string [] => .ok 0
  | .boolean _ => .error (.malformed location .number value)
  | _ =>
      match value.toInteger with
      | .ok milliseconds => .ok milliseconds
      | .error .infinite => .error .infiniteDuration
      | .error _ => .error (.malformed location .number value)

/-! ## Records -/

/-- What an attempt counts as: passed and skipped stand for themselves, all else is failed. -/
def statusOf : Json.Value → TestStatus
  | .string name =>
      if name = TestStatus.passed.name then .passed
      else if name = TestStatus.skipped.name then .skipped
      else .failed
  | _ => .failed

/-- The text of one chunk of output: a string, or the text of an object that has one. -/
def chunkText (chunk : Json.Value) : Text :=
  match chunk with
  | .string text => text
  | _ =>
      match chunk.member "text" with
      | .string text => text
      | _ => []

/-- The output of an attempt without colours. -/
def outputOf (location : Location) (attempt : Json.Value) : Except ReadingFault Text := do
  let chunks ← asList (location.member "stdout") (attempt.member "stdout")
  return Text.stripColours (chunks.flatMap chunkText)

/-- The text of one error: its message if it has one, else the whole value. -/
def errorText (error : Json.Value) : Text :=
  match error with
  | .object _ =>
      match error.member "message" with
      | .string (c :: rest) => c :: rest
      | _ => error.oneLine
  | _ => error.plain

/-- The errors of an attempt without colours. -/
def errorsOf (location : Location) (attempt : Json.Value) : Except ReadingFault (List Text) := do
  let errors ← asList (location.member "errors") (attempt.member "errors")
  return errors.map fun error => Text.stripColours (errorText error)

/-- Checks that every item is an object, and gives them with their locations. -/
def asObjects
    (location : Location) :
    (index : Nat) →
    List Json.Value →
    Except ReadingFault (List (Location × Json.Value))
  | _, [] => .ok []
  | index, value :: values => do
      let object ← asObject (location.item index) value
      let others ← asObjects location (index + 1) values
      return (location.item index, object) :: others

/-- The line of a spec, if it is an integer. -/
def lineOf : Json.Value → Option Int
  | .integer line => some line
  | _ => none

/-- The record of a spec whose first test had the given attempts, the final one apart. -/
def recordOf
    (suiteFile : Text)
    (location testLocation : Location)
    (spec test : Json.Value)
    (earlier : List (Location × Json.Value))
    (final : Location × Json.Value) :
    Except ReadingFault TestRecord := do
  let (finalLocation, attempt) := final
  let status := statusOf (attempt.member "status")
  let title ← asText (location.member "title") (spec.member "title")
  let file ← asText (location.member "file") (spec.member "file")
  let duration ← asDuration (finalLocation.member "duration") (attempt.member "duration")
  let stdout ← outputOf finalLocation attempt
  let errors ← errorsOf finalLocation attempt
  let project ← asText (testLocation.member "projectName") (test.member "projectName")
  return {
    title
    criterion := Title.criterion? title
    file := if file = [] then suiteFile else file
    line := lineOf (spec.member "line")
    status
    duration
    stdout
    errors
    project
    attempts := earlier.length + 1
    flaky :=
      status = .passed &&
        earlier.any fun (_, attempt) => statusOf (attempt.member "status") = .failed
  }

/-- The record of a spec, if it has a test with attempts. -/
def specRecord?
    (suiteFile : Text)
    (location : Location)
    (value : Json.Value) :
    Except ReadingFault (Option TestRecord) := do
  let spec ← asObject location value
  let tests ← asList (location.member "tests") (spec.member "tests")
  match tests with
  | [] => return none
  | first :: _ =>
      let testLocation := (location.member "tests").item 0
      let test ← asObject testLocation first
      let resultsLocation := testLocation.member "results"
      let results ← asList resultsLocation (test.member "results")
      let attempts ← asObjects resultsLocation 0 results
      match attempts.getLast? with
      | none => return none
      | some final =>
          let record ← recordOf suiteFile location testLocation spec test attempts.dropLast final
          return some record

/-- The records of specs, the first of which has the given index. -/
def specRecords
    (suiteFile : Text)
    (location : Location) :
    (index : Nat) →
    List Json.Value →
    Except ReadingFault (List TestRecord)
  | _, [] => .ok []
  | index, spec :: specs => do
      let record? ← specRecord? suiteFile (location.item index) spec
      let others ← specRecords suiteFile location (index + 1) specs
      return record?.toList ++ others

mutual

/-- The records of a suite: those of its own specs, then those of its nested suites. -/
def suiteRecords (location : Location) : Json.Value → Except ReadingFault (List TestRecord)
  | .object members => do
      let suite := Json.Value.object members
      let file ← asText (location.member "file") (suite.member "file")
      let specs ← asList (location.member "specs") (suite.member "specs")
      let own ← specRecords file (location.member "specs") 0 specs
      let nested ← nestedRecords location members
      return own ++ nested
  | other => .error (.malformed location .object other)

/-- The records of the suites that the member of that name holds. -/
def nestedRecords
    (location : Location) :
    List (Text × Json.Value) →
    Except ReadingFault (List TestRecord)
  | [] => .ok []
  | (name, value) :: members =>
      if name = "suites".toList then
        suitesRecords (location.member "suites") value
      else
        nestedRecords location members

/-- The records of a list of suites. -/
def suitesRecords (location : Location) : Json.Value → Except ReadingFault (List TestRecord)
  | .null => .ok []
  | .array suites => suiteListRecords location 0 suites
  | other => .error (.malformed location .list other)

/-- The records of suites, the first of which has the given index. -/
def suiteListRecords
    (location : Location) :
    (index : Nat) →
    List Json.Value →
    Except ReadingFault (List TestRecord)
  | _, [] => .ok []
  | index, suite :: suites => do
      let records ← suiteRecords (location.item index) suite
      let others ← suiteListRecords location (index + 1) suites
      return records ++ others

end

/-- The records of a document, in document order. -/
def records (document : Json.Value) : Except ReadingFault (List TestRecord) :=
  suitesRecords (Location.member [] "suites") (document.member "suites")

/-- The name under which reading writes to the log. -/
def logSource : Text :=
  "testwarden.evidence.results_ingestor"

/-- What the log says about the records of a document that has some. -/
def countLines (records : List TestRecord) : List LogLine :=
  if records = [] then
    []
  else
    let passed := (records.filter (·.status = .passed)).length
    let flaky := (records.filter (·.flaky)).length
    [{
      source := logSource
      level := .info
      message :=
        "Parsed " ++ Text.ofNat records.length ++ " test results: " ++ Text.ofNat passed ++
          " passed, " ++ Text.ofNat (records.length - passed) ++ " not passed, " ++
          Text.ofNat flaky ++ " flaky"
    }]

end TestAudit.Results
