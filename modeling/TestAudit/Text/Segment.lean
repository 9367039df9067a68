import TestAudit.Text.Basic

namespace TestAudit.Text

/-!
# Cutting a text into segments

A recogniser says, at a place of the text, whether a token begins there and how
many characters of it follow the first one. Cutting goes from left to right: a
token is taken whole, any other character stands alone. Because a token always
takes its first character, every step makes progress, and the segments
put together give the text back.
-/

/-- A token that a recogniser accepted, or a character outside every token. -/
inductive Segment where
  | plain (c : Char)
  | token (text : Text)
  deriving Repr, DecidableEq

/-- The length of a token beyond its first character, where one begins. -/
abbrev Recogniser := Text → Option Nat

/--
The segments of a text once a number of characters, the rest of a token that
was already taken, is passed over.
-/
def segmentsFrom (recognise : Recogniser) : Nat → Text → List Segment
  | _, [] => []
  | skip + 1, _ :: rest => segmentsFrom recognise skip rest
  | 0, c :: rest =>
      match recognise (c :: rest) with
      | none => .plain c :: segmentsFrom recognise 0 rest
      | some more => .token (c :: rest.take more) :: segmentsFrom recognise more rest

/-- The segments of a text from left to right. -/
def segments (recognise : Recogniser) (text : Text) : List Segment :=
  segmentsFrom recognise 0 text

/-- The text with every token written anew and all else kept. -/
def replaceTokens
    (recognise : Recogniser)
    (render : Text → Text)
    (text : Text) :
    Text :=
  (segments recognise text).flatMap fun
    | .plain c => [c]
    | .token found => render found

end TestAudit.Text
