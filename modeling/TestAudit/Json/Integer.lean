import TestAudit.Json.Value
import TestAudit.Text.Numeral
import TestAudit.Text.Quoted

namespace TestAudit.Json

/-!
# Integers from JSON values

A value is read as an integer where it denotes one: truth values count as one and
zero, the digits after the point of a finite number are dropped, and a string
must be an integer numeral.
-/

/-- Why a value denotes no integer. -/
inductive IntegerFault where
  | infinite
  | undefined
  | numeral (text : Text) (fault : Text.NumeralFault)
  | otherKind
  deriving Repr, DecidableEq

/-- How many characters of a text that is no numeral a message shows, quotes included. -/
def shownLength : Nat :=
  200

/-- The message for a value that denotes no integer. -/
def IntegerFault.message : IntegerFault → Text
  | .infinite => "cannot convert float infinity to integer"
  | .undefined => "cannot convert float NaN to integer"
  | .numeral text .malformed =>
      "invalid literal for int() with base 10: " ++ text.quoted.take shownLength
  | .numeral _ (.tooLong digits) => Text.NumeralFault.tooLongMessage digits
  | .otherKind => "not a number"

/-- The integer that a value denotes. -/
def Value.toInteger : Value → Except IntegerFault Int
  | .boolean holds => .ok (if holds then 1 else 0)
  | .integer number => .ok number
  | .real (.infinite _) => .error .infinite
  | .real number =>
      match number.truncate? with
      | some whole => .ok whole
      | none => .error .undefined
  | .string text => (Text.readInteger text).mapError (.numeral text)
  | _ => .error .otherKind

end TestAudit.Json
