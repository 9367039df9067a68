import TestAudit.Json.Value
import TestAudit.Numeric.Shortest
import TestAudit.Text.Quoted

namespace TestAudit.Json

/-!
# Writing JSON

Two layouts: on one line with a blank after each comma and colon, and over
several lines with two more blanks of indentation at each level. Both write
ASCII only; any other character becomes one or two escapes by number.

A third form, `Value.plain`, shows a value inside running text.
-/

/-- The names of the values that are not finite, in JSON. -/
def specialNames : Binary64.SpecialNames where
  infinity := "Infinity"
  undefined := "NaN"

/-- The escape by number of a code unit. -/
def unitEscape (unit : Nat) : Text :=
  "\\u" ++ Text.hexadecimal 4 unit

/-- One character of a string. -/
def escapeChar (c : Char) : Text :=
  if c = '\x22' then "\\\x22"
  else if c = '\\' then "\\\\"
  else if c = '\n' then "\\n"
  else if c = '\r' then "\\r"
  else if c = '\t' then "\\t"
  else if c = '\x08' then "\\b"
  else if c = '\x0C' then "\\f"
  else if 0x20 ≤ c.toNat ∧ c.toNat ≤ 0x7E then [c]
  else if c.toNat < 0x10000 then unitEscape c.toNat
  else
    unitEscape (0xD800 + (c.toNat - 0x10000) / 0x400) ++
      unitEscape (0xDC00 + (c.toNat - 0x10000) % 0x400)

/-- A string between quotes. -/
def stringText (text : Text) : Text :=
  '\x22' :: text.flatMap escapeChar ++ ['\x22']

/-- A line feed and the indentation of a level. -/
def newLine (level : Nat) : Text :=
  '\n' :: List.replicate (2 * level) ' '

/-- How the parts of arrays and objects are set apart. -/
inductive Layout where
  | oneLine
  | indented
  deriving Repr, DecidableEq

namespace Layout

/-- What stands after an opening and before a closing bracket at a level. -/
def margin : Layout → Nat → Text
  | .oneLine, _ => []
  | .indented, level => newLine level

/-- What stands between two parts at a level. -/
def separator : Layout → Nat → Text
  | .oneLine, _ => ", "
  | .indented, level => ',' :: newLine level

end Layout

namespace Value

mutual

/-- A value in a layout, its brackets standing at the given level. -/
def render (layout : Layout) (level : Nat) : Value → Text
  | .null => "null"
  | .boolean true => "true"
  | .boolean false => "false"
  | .integer number => Text.ofInt number
  | .real number => number.toText specialNames
  | .string text => stringText text
  | .array [] => "[]"
  | .array (item :: items) =>
      '[' :: layout.margin (level + 1) ++ item.render layout (level + 1) ++
        renderItems layout (level + 1) items ++ layout.margin level ++ [']']
  | .object [] => "\x7b\x7d"
  | .object ((name, value) :: members) =>
      '\x7b' :: layout.margin (level + 1) ++ stringText name ++ ':' :: ' ' ::
        value.render layout (level + 1) ++
        renderMembers layout (level + 1) members ++ layout.margin level ++ ['\x7d']

/-- The items of an array after the first, each after a separator. -/
def renderItems (layout : Layout) (level : Nat) : List Value → Text
  | [] => []
  | item :: items =>
      layout.separator level ++ item.render layout level ++ renderItems layout level items

/-- The members of an object after the first, each after a separator. -/
def renderMembers (layout : Layout) (level : Nat) : List (Text × Value) → Text
  | [] => []
  | (name, value) :: members =>
      layout.separator level ++ stringText name ++ ':' :: ' ' :: value.render layout level ++
        renderMembers layout level members

end

/-- The value on one line. -/
def oneLine (value : Value) : Text :=
  value.render .oneLine 0

/-- The value over several lines. -/
def indented (value : Value) : Text :=
  value.render .indented 0

/-- The names of the values that are not finite, in running text. -/
def plainSpecialNames : Binary64.SpecialNames where
  infinity := "inf"
  undefined := "nan"

mutual

/-- A value inside another one, in running text: strings stand between quotes. -/
def nested : Value → Text
  | .null => "None"
  | .boolean true => "True"
  | .boolean false => "False"
  | .integer number => Text.ofInt number
  | .real number => number.toText plainSpecialNames
  | .string text => Text.quoted text
  | .array [] => "[]"
  | .array (item :: items) => '[' :: item.nested ++ nestedItems items ++ [']']
  | .object [] => "\x7b\x7d"
  | .object ((name, value) :: members) =>
      '\x7b' :: Text.quoted name ++ ':' :: ' ' :: value.nested ++ nestedMembers members ++ ['\x7d']

/-- The items after the first, each after a comma. -/
def nestedItems : List Value → Text
  | [] => []
  | item :: items => ',' :: ' ' :: item.nested ++ nestedItems items

/-- The members after the first, each after a comma. -/
def nestedMembers : List (Text × Value) → Text
  | [] => []
  | (name, value) :: members =>
      ',' :: ' ' :: Text.quoted name ++ ':' :: ' ' :: value.nested ++ nestedMembers members

end

/-- A value in running text: a string stands for itself. -/
def plain : Value → Text
  | .string text => text
  | value => value.nested

end Value

end TestAudit.Json
