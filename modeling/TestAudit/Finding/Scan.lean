import TestAudit.Finding.Violation
import TestAudit.Log
import TestAudit.Source.CallSpan
import TestAudit.Source.Mask
import TestAudit.Source.Receiver
import TestAudit.Text.Quoted

namespace TestAudit.Scan

/-!
# Scanning a test file

Each rule of the language is searched for in its regions: the arguments of every
script-execution call, and for a rule about the whole file also the text with
its literals blanked. A match whose receiver is read-only is passed over. The
rest are reported once for each line and rule, in the order of lines.
-/

/-- The name under which scanning writes to the log. -/
def logSource : Text :=
  "testwarden.integrity.scanner"

/-- The line of an offset, counted from one. -/
def lineNumber (text : Text) (offset : Nat) : Nat :=
  (text.take offset).count '\n' + 1

/-- How many lines before a finding its context shows. -/
def linesBefore : Nat :=
  2

/-- How many lines after a finding its context shows. -/
def linesAfter : Nat :=
  5

/-- The lines around a line, without carriage returns at their ends. -/
def contextWindow (lines : List Text) (line : Int) : Text :=
  let start := (line - 1 - linesBefore).toNat
  let stop := line + linesAfter
  let shown :=
    if stop < 0 then
      lines.take (lines.length - stop.natAbs)
    else
      lines.take stop.toNat
  Text.joinWith ['\n'] ((shown.drop start).map (Text.dropEndWhile (· == '\r')))

/-- The excerpts in which a rule is searched for: all calls, and perhaps the whole text. -/
def excerptsFor (rule : Rule) (whole : Excerpt) (calls : List Excerpt) : List Excerpt :=
  match rule.scope with
  | .file => whole :: calls
  | .call => calls

/-- A match of a rule, with the receiver in front of it. -/
structure Match where
  rule : Rule
  occurrence : Occurrence
  receiver : Text
  deriving Repr, DecidableEq

namespace Match

/-- Whether the match writes to a read-only receiver. -/
def isHarmless (found : Match) : Bool :=
  Receiver.isReadOnly found.receiver

end Match

/-- The matches of a rule in an excerpt. -/
def matchesIn (rule : Rule) (excerpt : Excerpt) : List Match :=
  (rule.pattern.occurrences excerpt).map fun occurrence => {
    rule
    occurrence
    receiver :=
      Receiver.chain excerpt.region.text occurrence.offset excerpt.region.start
  }

/-- All matches of the rules of a language in a text, harmless ones included. -/
def allMatches (language : Language) (text : Text) : List Match :=
  let spans := language.callSpans text CallSpan.defaultWindow
  let calls := spans.map fun span => (span.region text).excerpt
  let whole := (Region.whole (language.mask text)).excerpt
  language.rules.flatMap fun rule =>
    (excerptsFor rule whole calls).flatMap (matchesIn rule)

/-- The violation that a match is, in a file with the given label. -/
def violationOf (label text : Text) (lines : List Text) (found : Match) : Violation :=
  let line := lineNumber text found.occurrence.offset
  let context := contextWindow lines line
  {
    file := label
    line
    id := found.rule.id
    severity := found.rule.severity
    description := found.rule.description
    commandment := found.rule.commandment
    context := if context.allBlank then found.occurrence.matched else context
  }

/-- What the log says about a match that is passed over. -/
def harmlessLine (label : Text) (found : Match) : LogLine where
  source := logSource
  level := .debug
  message :=
    label ++ ": " ++ found.rule.id ++ " skipped, read-only receiver " ++ found.receiver.quoted

/-- The violations that matches in a text are, each once, by line and identifier. -/
def violationsOf (label text : Text) (found : List Match) : List Violation :=
  let lines := text.splitOn '\n'
  let reported := found.filter (!·.isHarmless)
  (distinctBy Violation.key (reported.map (violationOf label text lines))).mergeSort
    Violation.precedes

/-- The violations in a text; a text of no known language has none. -/
def scan (label text : Text) : Option Language → Logged (List Violation)
  | none => pure []
  | some language =>
      let found := allMatches language text
      {
        log := (found.filter (·.isHarmless)).map (harmlessLine label)
        value := violationsOf label text found
      }

end TestAudit.Scan
