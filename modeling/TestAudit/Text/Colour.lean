import TestAudit.Text.Segment

namespace TestAudit.Text

/-!
# Terminal colour sequences

A colour sequence is the escape character, an opening square bracket, any number
of ASCII digits and semicolons, and the letter m.
-/

/-- Whether a character may stand between the bracket and the final letter. -/
def isColourParameter (c : Char) : Bool :=
  c.isDigit || c == ';'

/-- The length beyond its first character of the colour sequence that begins the text. -/
def colourSequence? : Recogniser
  | '\x1b' :: '[' :: rest =>
      let parameters := rest.takeWhile isColourParameter
      if (rest.drop parameters.length).head? = some 'm' then
        some (parameters.length + 2)
      else
        none
  | _ => none

/-- The text without its colour sequences, which are found in one pass. -/
def stripColours (text : Text) : Text :=
  replaceTokens colourSequence? (fun _ => []) text

end TestAudit.Text
