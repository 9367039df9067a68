import TestAudit.Log
import TestAudit.Report.Coverage

namespace TestAudit

/-!
# Evidence reports

A report joins the records of a run with the criteria of a catalog and the
images. Criteria that only test titles name are added behind those of the
catalog. An image goes to the row of its criterion if that has tests, and to the
gallery otherwise.
-/

/-- Everything that is shown in an evidence report. -/
structure Report where
  projectName : Text
  /-- The moment of the report, as it is shown. -/
  timestamp : Text
  total : Nat := 0
  passed : Nat := 0
  failed : Nat := 0
  skipped : Nat := 0
  duration : Int := 0
  coverage : List Coverage := []
  /-- The images that are in no row. -/
  gallery : List Image := []
  imageCount : Nat := 0
  deriving Repr, DecidableEq

namespace Report

/-- The name under which compiling writes to the log. -/
def logSource : Text :=
  "testwarden.evidence.report_compiler"

/-- The rows whose criteria have too few executed tests. -/
def gaps (report : Report) : List Coverage :=
  report.coverage.filter (·.isGap)

/-- The number of criteria that have tests. -/
def coveredCount (report : Report) : Nat :=
  report.coverage.countP (·.tests ≠ [])

/-! ## Criteria of a report -/

/-- How many characters of a test title describe a criterion that only titles name. -/
def discoveredLength : Nat :=
  60

/-- The criterion that a test title names. -/
def discovered (id title : Text) : Criterion where
  id := id
  description := (Title.withoutId title).take discoveredLength
  provenance := .discovered

/-- What the log says about a criterion that only a test title names. -/
def discoveredLine (id title : Text) : LogLine where
  source := logSource
  level := .debug
  message := "Discovered " ++ id ++ " from test title '" ++ title ++ "'"

/-- The criterion that a record is tagged with, if its tag is not empty. -/
def tag? (record : TestRecord) : Option Text :=
  record.criterion.filter (· ≠ [])

/-- The record names a criterion that is not among the given ones. -/
def unknownTag? (criteria : List Criterion) (record : TestRecord) : Option Text :=
  (tag? record).filter fun id => !(criteria.any (·.id = id))

/-- A tag that is no identifier of a criterion. -/
structure InvalidTag where
  tag : Text
  deriving Repr, DecidableEq

/-- The criteria together with those that only the records name, in the order of their records. -/
def withDiscovered :
    List Criterion → List TestRecord → Logged (Except InvalidTag (List Criterion))
  | criteria, [] => pure (.ok criteria)
  | criteria, record :: records =>
      match unknownTag? criteria record with
      | none => withDiscovered criteria records
      | some id =>
          if Criterion.isId id then do
            Logged.tell [discoveredLine id record.title]
            withDiscovered (criteria ++ [discovered id record.title]) records
          else
            pure (.error { tag := id })

/-! ## Rows -/

/-- The records that are tagged with an identifier. -/
def testsOf (id : Text) (records : List TestRecord) : List TestRecord :=
  records.filter (·.criterion = some id)

/-- The images of an identifier that has the given tests: without tests it has none. -/
def imagesOf (id : Text) (tests : List TestRecord) (images : List Image) : List Image :=
  if tests = [] then [] else images.filter (·.criterion = some id)

/-- The row of a criterion. -/
def row (records : List TestRecord) (images : List Image) (criterion : Criterion) : Coverage :=
  let tests := testsOf criterion.id records
  Coverage.ofTests criterion tests (imagesOf criterion.id tests images)

/-- The images that no row has, by their names. -/
def unplaced (rows : List Coverage) (images : List Image) : List Image :=
  let placed := rows.flatMap fun row => row.images.map (·.filename)
  images.filter fun image => !placed.contains image.filename

/-- The report with one row for each of the criteria. -/
def ofCriteria
    (projectName timestamp : Text)
    (records : List TestRecord)
    (images : List Image)
    (criteria : List Criterion) :
    Report :=
  let rows := criteria.map (row records images)
  {
    projectName
    timestamp
    total := records.length
    passed := countStatus .passed records
    failed := countStatus .failed records
    skipped := countStatus .skipped records
    duration := totalDuration records
    coverage := rows
    gallery := unplaced rows images
    imageCount := images.length
  }

/-- What the log says about a report. -/
def compiledLine (report : Report) : LogLine where
  source := logSource
  level := .info
  message :=
    "Compiled report: " ++ Text.ofNat report.total ++ " tests, " ++
      Text.ofNat report.coverage.length ++ " ACs, " ++
      Text.ofNat report.gaps.length ++ " coverage gaps, " ++
      Text.ofNat report.imageCount ++ " screenshots"

/-- The report on the records of a run. -/
def compile
    (projectName timestamp : Text)
    (records : List TestRecord)
    (catalog : Catalog)
    (images : List Image) :
    Logged (Except InvalidTag Report) := do
  match ← withDiscovered catalog.criteria records with
  | .error invalid => return .error invalid
  | .ok criteria =>
      let report := ofCriteria projectName timestamp records images criteria
      Logged.tell [compiledLine report]
      return .ok report

end Report

end TestAudit
