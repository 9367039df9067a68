import TestAudit.Report.Compile
import TestAudit.Report.Placeholder
import TestAudit.Run.Duration
import TestAudit.Text.Entity

namespace TestAudit.Report

/-!
# Markup of a report

What stands in a document for each placeholder. Markup is put together from lines
of fixed markup and from user texts, which are always escaped, so no text of a
user can open or close an element or an attribute. Durations and numbers that a
document gave may be too long to be shown; counts never are.
-/

/-! ## Escaping -/

/-- The entities for quotes inside blocks of markup. -/
def blockQuotes : Text.QuoteEntities where
  single := "&#39;"
  double := "&#34;"

/-- The entities for quotes in the project name and the moment of a report. -/
def headingQuotes : Text.QuoteEntities where
  single := "&#x27;"
  double := "&quot;"

/-- A user text inside a block of markup. -/
def escaped (text : Text) : Text :=
  text.escapeMarkup blockQuotes

/-- Lines of markup, each with a line feed. -/
def markupLines (lines : List Text) : Text :=
  lines.flatMap (· ++ ['\n'])

/-- The numeral of a number that a document gave, if it is short enough to be written. -/
def numeral (number : Int) : Except Duration.Fault Text :=
  if Duration.exceedsDigitLimit number then
    .error .tooManyDigits
  else
    .ok (Text.ofInt number)

/-- The pieces of markup for several things, up to the first that cannot be shown. -/
def inOrder {α : Type} (piece : α → Except Duration.Fault Text) :
    List α → Except Duration.Fault Text
  | [] => .ok []
  | item :: items => do
      let first ← piece item
      let others ← inOrder piece items
      return first ++ others

/-! ## Badges -/

/-- A badge of a class with a label. -/
def badge (kind label : Text) : Text :=
  "<span class=\"" ++ kind ++ "-badge\">" ++ label ++ "</span>"

/-- The badge for a verdict on a criterion. -/
def verdictBadge : CoverageStatus → Text
  | .pass => badge "pass" "PASS"
  | .fail => badge "fail" "FAIL"
  | .belowMinimum => badge "skip" "BELOW MIN"

/-- The badge for the status of a test. -/
def testBadge : TestStatus → Text
  | .passed => badge "pass" "PASS"
  | .skipped => badge "skip" "SKIP"
  | .failed => badge "fail" "FAIL"

/-! ## Images -/

/-- One image with its caption. -/
def imageMarkup (image : Image) : Text :=
  markupLines [
    "  <div class=\"screenshot-item\">",
    "    <img src=\"" ++ escaped image.dataUri ++ "\" alt=\"" ++ escaped image.caption ++
      "\" loading=\"lazy\" onclick=\"openLightbox(this.src, this.alt)\">",
    "    <div class=\"caption\">" ++ escaped image.caption ++ "</div>",
    "  </div>"]

/-- Several images. -/
def imageGrid (images : List Image) : Text :=
  markupLines ["      <div class=\"screenshot-grid\">"] ++ images.flatMap imageMarkup ++
    markupLines ["</div>"]

/-! ## Matrix -/

/-- The row of a criterion in the matrix. -/
def matrixRow (coverage : Coverage) : Except Duration.Fault Text := do
  let id := escaped coverage.criterion.id
  let minimum ← numeral coverage.criterion.minimum
  return markupLines [
    "<tr class=\"ac-row\" data-ac=\"" ++ id ++ "\">",
    "  <td><strong>" ++ id ++ "</strong></td>",
    "  <td>" ++ escaped coverage.criterion.description ++ "</td>",
    "  <td>" ++ Text.ofNat coverage.total ++ " (min: " ++ minimum ++ ")</td>",
    "  <td>" ++ Text.ofNat coverage.passed ++ "</td>",
    "  <td>" ++ Text.ofNat coverage.failed ++ "</td>",
    "  <td>" ++ verdictBadge coverage.status ++ "</td>",
    "</tr>"]

/-- The rows of the matrix. -/
def matrixRows (report : Report) : Except Duration.Fault Text := do
  let rows ← inOrder matrixRow report.coverage
  return "\n\n" ++ rows

/-! ## Details -/

/-- A line if a condition holds. -/
def lineIf (holds : Bool) (line : Text) : List Text :=
  if holds then [line] else []

/-- Where a test stands: its file, and its line if it has one. -/
def testPlace (test : TestRecord) : Except Duration.Fault Text :=
  match test.line with
  | some line => do return escaped test.file ++ ':' :: (← numeral line)
  | none => .ok (escaped test.file)

/-- How often a test was tried, if more than once. -/
def attemptsText (test : TestRecord) : Text :=
  if 1 < test.attempts then " &middot; " ++ Text.ofInt test.attempts ++ " attempts" else []

/-- The lines about the output and the errors of a test. -/
def logLines (test : TestRecord) : List Text :=
  let output := Text.trim test.stdout
  lineIf (output ≠ []) ("        <div class=\"log-block\">" ++ escaped output ++ "</div>") ++
    test.errors.map fun error =>
      "        <div class=\"log-block error-block\">" ++ escaped error ++ "</div>"

/-- The card of a test whose duration and place are shown as the given texts. -/
def cardMarkup (test : TestRecord) (duration place : Text) : Text :=
  let heading : List Text := [
    "      <div class=\"test-card" ++ (if test.flaky then " flaky".toList else []) ++ "\">",
    "        <div class=\"test-card-header\">",
    "          " ++ testBadge test.status ++ " " ++ badge test.lane.name test.lane.label,
    "          <span class=\"test-name\">" ++ escaped (Title.withoutId test.title) ++ "</span>",
    "          <span class=\"test-meta\">" ++ duration ++ " &middot; " ++ place ++
      attemptsText test ++ "</span>",
    "        </div>"]
  markupLines (heading ++ logLines test ++ ["      </div>".toList])

/-- The card of a test. -/
def testCard (test : TestRecord) : Except Duration.Fault Text := do
  let duration ← Duration.show? test.duration
  let place ← testPlace test
  return cardMarkup test duration place

/-- The lines that open the section of a criterion whose duration is shown as the given text. -/
def sectionHeading (coverage : Coverage) (duration : Text) : List Text :=
  let id := escaped coverage.criterion.id
  let opening : List Text := [
    "<div class=\"ac-section\" id=\"ac-" ++ id ++ "\" data-status=\"" ++
      (if 0 < coverage.failed then "fail".toList else "pass") ++ "\">",
    "  <details>",
    "    <summary>",
    "      <span class=\"ac-title\">" ++ id ++ ": " ++ escaped coverage.criterion.description ++
      "</span>",
    "      <span class=\"ac-stats\">",
    "        " ++ verdictBadge coverage.status,
    "        <span>" ++ Text.ofNat coverage.tests.length ++ " tests</span>"]
  let closing : List Text := [
    "      </span>",
    "    </summary>",
    "    <div class=\"ac-content\">"]
  opening ++
    lineIf (0 < coverage.apiCount)
      ("        " ++ badge "api" ("API " ++ Text.ofNat coverage.apiCount)) ++
    lineIf (0 < coverage.e2eCount)
      ("        " ++ badge "e2e" ("E2E " ++ Text.ofNat coverage.e2eCount)) ++
    ["        <span>" ++ duration ++ "</span>"] ++
    lineIf (coverage.images ≠ [])
      ("        <span>" ++ Text.ofNat coverage.images.length ++ " screenshots</span>") ++
    closing

/-- The images in the section of a criterion, if it has any. -/
def sectionImages (coverage : Coverage) : Text :=
  if coverage.images = [] then
    []
  else
    markupLines ["      <h4 class=\"evidence-heading\">Screenshot Evidence</h4>"] ++
      imageGrid coverage.images

/-- The lines that close a section. -/
def sectionEnd : Text :=
  markupLines ["    </div>", "  </details>", "</div>"]

/-- The section of a criterion. -/
def detailSection (coverage : Coverage) : Except Duration.Fault Text := do
  let duration ← Duration.show? coverage.duration
  let cards ← inOrder testCard coverage.tests
  return markupLines (sectionHeading coverage duration) ++ cards ++ sectionImages coverage ++
    sectionEnd

/-- The section of the images that are in no row, if there are any. -/
def gallerySection (images : List Image) : Text :=
  if images = [] then
    []
  else
    markupLines [
      "<div class=\"ac-section\" id=\"other-screenshots\">",
      "  <details>",
      "    <summary>",
      "      <span class=\"ac-title\">Other Screenshots</span>",
      "      <span class=\"ac-stats\"><span>" ++ Text.ofNat images.length ++
        " screenshots</span></span>",
      "    </summary>",
      "    <div class=\"ac-content\">"] ++
      imageGrid images ++ sectionEnd

/-- The sections of the criteria that have tests, and the gallery. -/
def detailSections (report : Report) : Except Duration.Fault Text := do
  let sections ← inOrder detailSection (report.coverage.filter (·.tests ≠ []))
  return "\n\n" ++ sections ++ gallerySection report.gallery

/-! ## Gaps and review -/

/-- The warning about a criterion with too few tests. -/
def gapMarkup (coverage : Coverage) : Except Duration.Fault Text := do
  let minimum ← numeral coverage.criterion.minimum
  return markupLines [
    "<div class=\"gap-warning\">",
    "  <strong>" ++ escaped coverage.criterion.id ++ ": " ++
      escaped coverage.criterion.description ++ "</strong> &mdash; " ++
      Text.ofNat coverage.total ++ " tests found, minimum required: " ++ minimum,
    "</div>"]

/-- The warnings about gaps, or the line that says there are none. -/
def gapMarkups (report : Report) : Except Duration.Fault Text :=
  if report.gaps = [] then
    .ok (['\n'] ++ markupLines [
      "<p class=\"gap-ok\">All acceptance criteria meet or exceed minimum test coverage " ++
        "requirements.</p>"])
  else do
    let warnings ← inOrder gapMarkup report.gaps
    return ['\n'] ++ warnings

/-- One line of the review. -/
def reviewRow (subject verdict notes : Text) : Text :=
  "    <tr><td>" ++ subject ++ "</td><td>" ++ verdict ++ "</td><td>" ++ notes ++ "</td></tr>"

/-- The badge for something that is complete or has gaps. -/
def completeBadge (complete : Bool) : Text :=
  if complete then badge "pass" "PASS" else badge "fail" "GAPS"

/-- The review of a report. -/
def reviewSummary (report : Report) : Text :=
  let rows := Text.ofNat report.coverage.length
  let covered := Text.ofNat report.coveredCount
  let total := Text.ofNat report.total
  ['\n'] ++ markupLines [
    "<table class=\"review-table\">",
    "  <thead>",
    "    <tr><th>Criterion</th><th>Status</th><th>Notes</th></tr>",
    "  </thead>",
    "  <tbody>",
    reviewRow "AC naming convention"
      (if 0 < report.total then badge "pass" "PASS" else badge "skip" "N/A")
      (total ++ " tests scanned"),
    reviewRow "ACs covered" (completeBadge (report.coveredCount = report.coverage.length))
      (covered ++ "/" ++ rows ++ " acceptance criteria have tests"),
    reviewRow "Minimum coverage met" (completeBadge (report.gaps = []))
      (if report.gaps = [] then
        "All ACs meet minimum test count".toList
      else
        "Some ACs below minimum"),
    "  </tbody>",
    "</table>",
    "<p class=\"review-summary\"><strong>Summary:</strong> " ++ Text.ofNat report.passed ++ "/" ++
      total ++ " tests passed across " ++ covered ++ " acceptance criteria.</p>"]

/-! ## Documents -/

/-- What stands for each placeholder in the document of a report. -/
def fragments (report : Report) : Except Duration.Fault (Placeholder → Text) := do
  let duration ← Duration.show? report.duration
  let rows ← matrixRows report
  let details ← detailSections report
  let gaps ← gapMarkups report
  return fun
    | .projectName => report.projectName.escapeMarkup headingQuotes
    | .timestamp => report.timestamp.escapeMarkup headingQuotes
    | .duration => duration
    | .total => Text.ofNat report.total
    | .passed => Text.ofNat report.passed
    | .failed => Text.ofNat report.failed
    | .skipped => Text.ofNat report.skipped
    | .matrixRows => rows
    | .detailSections => details
    | .gaps => gaps
    | .reviewSummary => reviewSummary report
    | .securityRows => []

/-- The document of a report in a template. -/
def document (report : Report) (template : Text) : Except Duration.Fault Text := do
  let values ← fragments report
  return fillTemplate (fun placeholder => some (values placeholder)) template

end TestAudit.Report
