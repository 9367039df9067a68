import TestAudit.Criteria.Criterion
import TestAudit.Evidence.Image
import TestAudit.Run.Record

namespace TestAudit

/-!
# Coverage of a criterion

The tests and images of one criterion with their counts. Skipped tests are listed
but not executed, so they count neither for the total nor for the minimum.
-/

/-- The verdict on a criterion. -/
inductive CoverageStatus where
  | pass
  | fail
  | belowMinimum
  deriving Repr, DecidableEq

namespace CoverageStatus

/-- The name of a verdict. -/
def name : CoverageStatus → Text
  | .pass => "PASS"
  | .fail => "FAIL"
  | .belowMinimum => "BELOW-MIN"

end CoverageStatus

/-- One criterion with its tests and images: a row of the matrix and a section of the details. -/
structure Coverage where
  criterion : Criterion
  tests : List TestRecord := []
  images : List Image := []
  /-- The number of executed tests. -/
  total : Nat := 0
  passed : Nat := 0
  failed : Nat := 0
  skipped : Nat := 0
  apiCount : Nat := 0
  e2eCount : Nat := 0
  duration : Int := 0
  status : CoverageStatus := .belowMinimum
  deriving Repr, DecidableEq

/-- The number of tests with a status. -/
def countStatus (status : TestStatus) (tests : List TestRecord) : Nat :=
  tests.countP (·.status = status)

/-- The number of tests in a lane. -/
def countLane (lane : Lane) (tests : List TestRecord) : Nat :=
  tests.countP (·.lane = lane)

/-- The durations of tests together. -/
def totalDuration : List TestRecord → Int
  | [] => 0
  | test :: tests => test.duration + totalDuration tests

namespace Coverage

/-- The verdict: a failed test decides, then the minimum. -/
def statusFor (minimum passed failed : Nat) : CoverageStatus :=
  if 0 < failed then .fail
  else if passed + failed < minimum then .belowMinimum
  else .pass

/-- The coverage of a criterion by its tests and images. -/
def ofTests (criterion : Criterion) (tests : List TestRecord) (images : List Image) : Coverage :=
  let passed := countStatus .passed tests
  let failed := countStatus .failed tests
  {
    criterion
    tests
    images
    total := passed + failed
    passed
    failed
    skipped := tests.length - (passed + failed)
    apiCount := countLane .api tests
    e2eCount := countLane .e2e tests
    duration := totalDuration tests
    status := statusFor criterion.minimum passed failed
  }

/-- Whether fewer tests were executed than the criterion asks for. -/
def isGap (coverage : Coverage) : Bool :=
  coverage.total < coverage.criterion.minimum

end Coverage

end TestAudit
