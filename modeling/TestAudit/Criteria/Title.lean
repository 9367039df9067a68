import TestAudit.Text.Blank
import TestAudit.Text.Digit

namespace TestAudit.Title

/-!
# Criteria in test titles

A test title may begin with the identifier of an acceptance criterion: the mark
`AC-` and decimal digits. A description may follow behind colons and white space.
-/

/-- What every criterion identifier begins with. -/
def idMark : Text :=
  "AC-"

/-- The identifier at the beginning of a text, with all its digits, and the text after it. -/
def idAtStart? (text : Text) : Option (Text × Text) :=
  match text.afterStart? idMark with
  | none => none
  | some rest =>
      match rest.takeWhile Text.isDigit with
      | [] => none
      | digits => some (idMark ++ digits, rest.dropWhile Text.isDigit)

/-- Whether a text is an identifier and nothing else. -/
def isId (text : Text) : Bool :=
  match idAtStart? text with
  | some (_, rest) => rest.isEmpty
  | none => false

/-- The identifier that a title begins with. -/
def criterion? (title : Text) : Option Text :=
  (idAtStart? title).map (·.1)

/-- Whether a character may stand between an identifier and a description. -/
def isSeparator (c : Char) : Bool :=
  c == ':' || Text.isBlank c

/-- The text up to the end of its first line. -/
def firstLine (text : Text) : Text :=
  text.takeWhile (· != '\n')

/--
The line that follows at least one separator. Where only separators are left, the
last one that is no line feed is the line, if a separator stands before it.
-/
def lineAfter? (separates : Char → Bool) (text : Text) : Option Text :=
  match text.takeWhile separates, text.dropWhile separates with
  | [], _ => none
  | _ :: separators, [] => (separators.reverse.find? (· != '\n')).map fun c => [c]
  | _ :: _, rest => some (firstLine rest)

/-- The identifier and the description of a title that has both. -/
def described? (title : Text) : Option (Text × Text) :=
  match idAtStart? title with
  | none => none
  | some (id, rest) => (lineAfter? isSeparator rest).map fun line => (id, line.trim)

/-- A title without the identifier and the separators at its beginning. -/
def withoutId (title : Text) : Text :=
  match idAtStart? title with
  | none => title
  | some (_, rest) =>
      match rest.takeWhile isSeparator with
      | [] => title
      | _ => rest.dropWhile isSeparator

end TestAudit.Title
