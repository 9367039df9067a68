import TestAudit.Source.Literal
import TestAudit.Text.Segment

namespace TestAudit.Language

/-!
# Masked texts

Masking keeps the code of a text and blanks what its literals hold. Offsets and
line feeds stay where they are, and the quotes around a string are kept.
-/

/-- The literals of a language as tokens. -/
def literalToken? (language : Language) : Text.Recogniser :=
  fun text => (language.literalLength? text).map (· - 1)

/-- A blank in the place of a character; line feeds are kept. -/
def blanked (c : Char) : Char :=
  if c = '\n' then '\n' else ' '

/-- Whether a character can close a string. -/
def isQuote (c : Char) : Bool :=
  c == '\x27' || c == '\x22' || c == '\x60'

/-- A string with its contents blanked: the first character stays, and a quote at its end. -/
def maskString : Text → Text
  | [] => []
  | c :: rest =>
      match rest.getLast? with
      | some last =>
          if isQuote last then
            c :: rest.dropLast.map blanked ++ [last]
          else
            c :: rest.map blanked
      | none => [c]

/-- A literal with its contents blanked; nothing of a comment stays. -/
def maskLiteral (language : Language) (literal : Text) : Text :=
  match language.literal? literal with
  | some (form, _) => if form.isComment then literal.map blanked else maskString literal
  | none => literal

/-- The text with the contents of all literals blanked. -/
def mask (language : Language) (text : Text) : Text :=
  Text.replaceTokens language.literalToken? language.maskLiteral text

end TestAudit.Language
