import TestAudit.Criteria.Criterion
import TestAudit.Distinct

namespace TestAudit

/-!
# Criteria in documents and titles

A line of a document defines a criterion when it is a heading, a list item or a
plain line that begins with an identifier, possibly between asterisks, and a
description follows. A test title defines one when it begins with an identifier
and a description follows. Where several lines or titles define one criterion,
the first counts.
-/

namespace Document

/-- Whether a character is a blank or a tab. -/
def isGap (c : Char) : Bool :=
  c == ' ' || c == '\t'

/-- Whether a character may stand between an identifier and a description. -/
def isSeparator (c : Char) : Bool :=
  c == ':' || isGap c

/-- A line without the mark of a heading or of a list item. -/
def withoutMark (line : Text) : Text :=
  match line with
  | '#' :: rest => (rest.dropWhile (· == '#')).dropWhile isGap
  | '-' :: rest => rest.dropWhile isGap
  | '*' :: rest => rest.dropWhile isGap
  | _ => line

/-- Whether a character is an asterisk. -/
def isAsterisk (c : Char) : Bool :=
  c == '*'

/-- The criterion that a line defines; one without a description defines none. -/
def criterion? (line : Text) : Option Criterion :=
  match Title.idAtStart? ((withoutMark line).dropWhile isAsterisk) with
  | none => none
  | some (id, rest) =>
      match Title.lineAfter? isSeparator (rest.dropWhile isAsterisk) with
      | none => none
      | some described =>
          let description := Text.trim (described.filter (!isAsterisk ·))
          if description = [] then
            none
          else
            some { id, description, provenance := .markdown }

/-- The criteria that a document defines. -/
def criteria (text : Text) : List Criterion :=
  distinctBy Criterion.id ((text.splitOn '\n').filterMap criterion?)

end Document

namespace Title

/-- The criterion that a test title defines. -/
def definition? (title : Text) : Option Criterion :=
  (described? title).map fun (id, description) => { id, description, provenance := .titles }

/-- The criteria that test titles define. -/
def criteria (titles : List Text) : List Criterion :=
  distinctBy Criterion.id (titles.filterMap definition?)

end Title

end TestAudit
