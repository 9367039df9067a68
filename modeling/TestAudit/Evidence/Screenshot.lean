import TestAudit.Criteria.Title
import TestAudit.Text.Capital
import TestAudit.Text.Word

namespace TestAudit.Screenshot

/-!
# Names of screenshots

The name of a screenshot says what it shows: the letters `ac` and a number name a
criterion, and the words behind them, joined by hyphens or low lines, become the
caption.
-/

/-- The digits of the criterion that a name begins with, and the name after them. -/
def numberAtStart? (name : Text) : Option (Text × Text) :=
  match name with
  | a :: c :: rest =>
      if a.toLower = 'a' ∧ c.toLower = 'c' then
        match rest.takeWhile Text.isDigit with
        | [] => none
        | digits => some (digits, rest.dropWhile Text.isDigit)
      else
        none
  | _ => none

/-- The criterion that a name begins with. -/
def criterion? (name : Text) : Option Text :=
  (numberAtStart? name).map fun (digits, _) => Title.idMark ++ digits

/-- A text without its last dot and the word characters after it, if they end it. -/
def withoutEnding (text : Text) : Text :=
  match text.reverse.takeWhile Text.isWord, text.reverse.dropWhile Text.isWord with
  | _ :: _, '.' :: stem => stem.reverse
  | _, _ => text

/-- The name without its ending, which a line feed may follow. -/
def stem (name : Text) : Text :=
  match name.getLast? with
  | some '\n' => withoutEnding name.dropLast ++ ['\n']
  | _ => withoutEnding name

/-- A text without the criterion it begins with and a hyphen after it. -/
def withoutCriterion (text : Text) : Text :=
  match numberAtStart? text with
  | none => text
  | some (_, '-' :: rest) => rest
  | some (_, rest) => rest

/-- The words of a text, which hyphens and low lines separate. -/
def words (text : Text) : List Text :=
  ((text.splitOn '-').flatMap (Text.splitOn '_')).filter (· ≠ [])

/-- A word with its first character written as a capital. -/
def capitalized : Text → Text
  | [] => []
  | c :: rest => Text.capital c ++ rest

/-- The caption of a screenshot; without any words it is the whole name. -/
def caption (name : Text) : Text :=
  match words (withoutCriterion (stem name)) with
  | [] => name
  | words => Text.joinWith [' '] (words.map capitalized)

end TestAudit.Screenshot
