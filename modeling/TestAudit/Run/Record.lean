import TestAudit.Text.Basic

namespace TestAudit

/-!
# Test records

One record for each test of a run. Its status is that of the final attempt.
-/

/-- How a test ended. -/
inductive TestStatus where
  | passed
  | failed
  | skipped
  deriving Repr, DecidableEq

namespace TestStatus

/-- The name of a status in reports. -/
def name : TestStatus → Text
  | .passed => "passed"
  | .failed => "failed"
  | .skipped => "skipped"

/-- The status with a given name. -/
def ofName? (name : Text) : Option TestStatus :=
  [passed, failed, skipped].find? (·.name = name)

end TestStatus

/-- The lane that a test runs in. -/
inductive Lane where
  | api
  | e2e
  deriving Repr, DecidableEq

namespace Lane

/-- The name of a lane. -/
def name : Lane → Text
  | .api => "api"
  | .e2e => "e2e"

/-- The name of a lane in capitals. -/
def label : Lane → Text
  | .api => "API"
  | .e2e => "E2E"

end Lane

/-- One test of a run. -/
structure TestRecord where
  title : Text
  /-- The criterion that the title names. -/
  criterion : Option Text := none
  file : Text := []
  line : Option Int := none
  status : TestStatus
  /-- The duration in milliseconds. -/
  duration : Int := 0
  stdout : Text := []
  errors : List Text := []
  /-- The name of the project, which decides the lane. -/
  project : Text := []
  attempts : Int := 1
  /-- Whether the test passed after an attempt that did not. -/
  flaky : Bool := false
  deriving Repr, DecidableEq

namespace TestRecord

/-- Tests of the project `api` run in the lane of that name, all others end to end. -/
def lane (record : TestRecord) : Lane :=
  if record.project = Lane.api.name then .api else .e2e

end TestRecord

end TestAudit
