import TestAudit.Text.Basic

namespace TestAudit.Text

/-!
# Markup entities

The five characters that carry meaning in markup are written as entities. The
two quotes have several entities each; a record says which ones are used.
-/

/-- The entities that stand for the two kinds of quotes. -/
structure QuoteEntities where
  single : Text
  double : Text
  deriving Repr, DecidableEq

/-- What stands for a character in markup text. -/
def entityFor (quotes : QuoteEntities) (c : Char) : Text :=
  if c = '&' then "&amp;"
  else if c = '<' then "&lt;"
  else if c = '>' then "&gt;"
  else if c = '\x27' then quotes.single
  else if c = '\x22' then quotes.double
  else [c]

/-- The text with its markup characters written as entities. -/
def escapeMarkup (quotes : QuoteEntities) (text : Text) : Text :=
  text.flatMap (entityFor quotes)

end TestAudit.Text
