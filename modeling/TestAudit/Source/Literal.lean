import TestAudit.Source.Language

namespace TestAudit

/-!
# Literals and comments

A literal is a string or a comment. Each language has a list of forms; the form
that takes effect at a place is the first one whose opening stands there. A
literal that is never closed goes on to the end of the text, except that a string
on one line ends before the line does.
-/

/-- A way of writing a string or a comment. -/
inductive LiteralForm where
  /-- A comment up to the end of the line. -/
  | lineComment (opening : Text)
  /-- A comment between two markers. -/
  | blockComment (opening closing : Text)
  /-- A string without escapes in which a doubled quote stands for a quote. -/
  | verbatim (opening : Text)
  /-- A string between two equal delimiters, in which a backslash escapes one character. -/
  | quoted (delimiter : Text) (multiline : Bool)
  deriving Repr, DecidableEq

namespace LiteralForm

/-- Whether the form is a comment. -/
def isComment : LiteralForm → Bool
  | .lineComment _ | .blockComment _ _ => true
  | .verbatim _ | .quoted _ _ => false

/-- What a literal of the form begins with. -/
def opening : LiteralForm → Text
  | .lineComment opening => opening
  | .blockComment opening _ => opening
  | .verbatim opening => opening
  | .quoted delimiter _ => delimiter

/-- The number of characters up to the end of the first closing marker, or of the text. -/
def lengthThrough (closing : Text) : Text → Nat
  | [] => 0
  | c :: rest =>
      if closing.isPrefixOf (c :: rest) then
        closing.length
      else
        lengthThrough closing rest + 1

/-- The number of characters after the opening of a verbatim string. -/
def verbatimLength : Text → Nat
  | [] => 0
  | '\x22' :: '\x22' :: rest => verbatimLength rest + 2
  | '\x22' :: _ => 1
  | _ :: rest => verbatimLength rest + 1

/-- The number of characters after the opening delimiter of a quoted string. -/
def quotedLength (delimiter : Text) (multiline : Bool) : Text → Nat
  | [] => 0
  | ['\\'] => 1
  | '\\' :: _ :: rest => quotedLength delimiter multiline rest + 2
  | c :: rest =>
      if delimiter.isPrefixOf (c :: rest) then
        delimiter.length
      else if c = '\n' ∧ multiline = false then
        0
      else
        quotedLength delimiter multiline rest + 1

/-- The number of characters of a literal after its opening. -/
def bodyLength (form : LiteralForm) (body : Text) : Nat :=
  match form with
  | .lineComment _ => (body.takeWhile (· != '\n')).length
  | .blockComment _ closing => lengthThrough closing body
  | .verbatim _ => verbatimLength body
  | .quoted delimiter multiline => quotedLength delimiter multiline body

/-- The length of the literal of this form that begins a text, if one does. -/
def length? (form : LiteralForm) (text : Text) : Option Nat :=
  (text.afterStart? form.opening).map fun body => form.opening.length + form.bodyLength body

end LiteralForm

namespace Language

/-- The literal forms of a language, the one that takes precedence first. -/
def literalForms : Language → List LiteralForm
  | .script =>
      [ .lineComment "//",
        .blockComment "/*" "*/",
        .quoted "\x60" true,
        .quoted "\x27" false,
        .quoted "\x22" false ]
  | .csharp =>
      [ .lineComment "//",
        .blockComment "/*" "*/",
        .verbatim "@\x22",
        .quoted "\x27" false,
        .quoted "\x22" false ]
  | .python =>
      [ .lineComment "#",
        .quoted "\x22\x22\x22" true,
        .quoted "\x27\x27\x27" true,
        .quoted "\x27" false,
        .quoted "\x22" false ]
  | .go => []

/-- The form of the literal that begins a text, and its length. -/
def literal? (language : Language) (text : Text) : Option (LiteralForm × Nat) :=
  language.literalForms.findSome? fun form => (form.length? text).map (form, ·)

/-- The length of the literal that begins a text. -/
def literalLength? (language : Language) (text : Text) : Option Nat :=
  (language.literal? text).map (·.2)

end Language

end TestAudit
