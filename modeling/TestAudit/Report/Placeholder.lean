import TestAudit.Text.Segment

namespace TestAudit

/-!
# Templates

A template is any text; the twelve placeholders in it are replaced, all at once.
A placeholder for a value is a name between double braces, one for a block stands
in a comment of its own. Inserted texts are not looked at again.
-/

/-- What a template can ask for. -/
inductive Placeholder where
  | projectName
  | timestamp
  | duration
  | total
  | passed
  | failed
  | skipped
  | matrixRows
  | detailSections
  | gaps
  | reviewSummary
  | securityRows
  deriving Repr, DecidableEq

namespace Placeholder

/-- All placeholders. -/
def all : List Placeholder :=
  [ projectName, timestamp, duration, total, passed, failed, skipped,
    matrixRows, detailSections, gaps, reviewSummary, securityRows ]

/-- The name of a placeholder in templates. -/
def name : Placeholder → Text
  | projectName => "PROJECT_NAME"
  | timestamp => "TIMESTAMP"
  | duration => "DURATION"
  | total => "TOTAL"
  | passed => "PASSED"
  | failed => "FAILED"
  | skipped => "SKIPPED"
  | matrixRows => "AC_ROWS"
  | detailSections => "AC_DETAIL_SECTIONS"
  | gaps => "GAPS"
  | reviewSummary => "REVIEW_SUMMARY"
  | securityRows => "SECURITY_ROWS"

/-- Whether a placeholder stands for a block of markup. -/
def isBlock : Placeholder → Bool
  | matrixRows | detailSections | gaps | reviewSummary | securityRows => true
  | _ => false

/-- The name between double braces. -/
def braced (name : Text) : Text :=
  "\x7b\x7b" ++ name ++ "\x7d\x7d"

/-- A placeholder as templates write it. -/
def token (placeholder : Placeholder) : Text :=
  if placeholder.isBlock then
    "<!-- " ++ braced placeholder.name ++ " -->"
  else
    braced placeholder.name

/-- All placeholders as templates write them. -/
def tokens : List Text :=
  all.map token

/-- The placeholder that a text is. -/
def ofToken? (text : Text) : Option Placeholder :=
  all.find? fun placeholder => placeholder.token = text

/-- Recognises placeholders. -/
def recogniser : Text.Recogniser :=
  fun text => (tokens.find? text.startsWith).map (·.length - 1)

end Placeholder

/-- The template with its placeholders replaced; one without a value stays. -/
def fillTemplate (values : Placeholder → Option Text) (template : Text) : Text :=
  template.replaceTokens Placeholder.recogniser fun found =>
    ((Placeholder.ofToken? found).bind values).getD found

end TestAudit
