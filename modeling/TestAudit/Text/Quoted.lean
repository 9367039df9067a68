import TestAudit.Text.Basic
import TestAudit.Text.Printable

namespace TestAudit.Text

/-!
# Quoted texts

How messages show a text: between single quotes, or between double quotes when
the text holds a single quote and no double one. The delimiter and the backslash
are written behind a backslash, line ends and tabs as letters, and characters
that are not printable by the hexadecimal number of their code point.
-/

/-- A numeral filled up with zeros on the left to a least width. -/
def padZeros (width : Nat) (numeral : Text) : Text :=
  List.replicate (width - numeral.length) '0' ++ numeral

/-- The hexadecimal numeral of a number with small letters and a least width. -/
def hexadecimal (width number : Nat) : Text :=
  padZeros width (Nat.toDigits 16 number)

/-- The number of a character that is not printable, in the shortest of three forms. -/
def numbered (c : Char) : Text :=
  if c.toNat ≤ 0xFF then
    "\\x" ++ hexadecimal 2 c.toNat
  else if c.toNat ≤ 0xFFFF then
    "\\u" ++ hexadecimal 4 c.toNat
  else
    "\\U" ++ hexadecimal 8 c.toNat

/-- One character between quotes of the given kind. -/
def quotedChar (delimiter c : Char) : Text :=
  if c = delimiter || c = '\\' then
    ['\\', c]
  else if c = '\n' then
    "\\n"
  else if c = '\r' then
    "\\r"
  else if c = '\t' then
    "\\t"
  else if isPrintable c then
    [c]
  else
    numbered c

/-- The quote that delimits a text. -/
def delimiterFor (text : Text) : Char :=
  if text.contains '\x27' && !text.contains '\x22' then '\x22' else '\x27'

/-- The text between quotes, as messages show it. -/
def quoted (text : Text) : Text :=
  let delimiter := delimiterFor text
  delimiter :: text.flatMap (quotedChar delimiter) ++ [delimiter]

end TestAudit.Text
