import TestAudit.Text.Basic
import TestAudit.Text.CodeRanges

namespace TestAudit.Text

/-!
# Blanks

White space in the wide sense: the Unicode property together with the four
information separators U+001C to U+001F. Trimming removes blanks at the ends of
a text and nothing else.
-/

/-- All blank characters. -/
def blankRanges : CodeRanges :=
  [ (0x9, 0xD), (0x1C, 0x20), (0x85, 0x85), (0xA0, 0xA0), (0x1680, 0x1680),
    (0x2000, 0x200A), (0x2028, 0x2029), (0x202F, 0x202F), (0x205F, 0x205F), (0x3000, 0x3000) ]

/-- Whether a character is white space or an information separator. -/
def isBlank (c : Char) : Bool :=
  blankRanges.has c.toNat

/-- The text without the blanks at its beginning. -/
def trimStart (text : Text) : Text :=
  text.dropWhile isBlank

/-- The text without the blanks at its end. -/
def trimEnd (text : Text) : Text :=
  text.dropEndWhile isBlank

/-- The text without the blanks at both ends. -/
def trim (text : Text) : Text :=
  trimEnd (trimStart text)

/-- Whether nothing but blanks is in the text. -/
def allBlank (text : Text) : Bool :=
  text.all isBlank

end TestAudit.Text
