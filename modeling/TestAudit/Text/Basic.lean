namespace TestAudit

/-!
# Texts

A text is the list of its code points, so every offset and every length counts
code points, and each operation below is a recursion over the characters. Half a
surrogate pair is no character, so no text holds one on its own. String literals
are read as texts through a coercion.
-/

/-- A text: its code points from left to right. -/
abbrev Text := List Char

/-- A literal stands for the text of its code points. -/
instance : Coe String Text :=
  ⟨String.toList⟩

namespace Text

/-- Whether the text begins with the given one. -/
def startsWith (text beginning : Text) : Bool :=
  beginning.isPrefixOf text

/-- Whether the text ends with the given one. -/
def endsWith (text ending : Text) : Bool :=
  ending.isSuffixOf text

/-- What follows a given beginning, if the text begins with it. -/
def afterStart? : Text → Text → Option Text
  | text, [] => some text
  | c :: text, d :: beginning =>
      if c = d then afterStart? text beginning else none
  | [], _ :: _ => none

/-- The pieces between the occurrences of a separating character; never empty. -/
def splitOn (separator : Char) : Text → List Text
  | [] => [[]]
  | c :: rest =>
      if c = separator then
        [] :: splitOn separator rest
      else
        match splitOn separator rest with
        | piece :: pieces => (c :: piece) :: pieces
        | [] => [[c]]

/-- The pieces in order with a separating text between neighbours. -/
def joinWith (separator : Text) (pieces : List Text) : Text :=
  separator.intercalate pieces

/-- The part before the first occurrence of a character, and the part after it. -/
def cutAt? (separator : Char) : Text → Option (Text × Text)
  | [] => none
  | c :: rest =>
      if c = separator then
        some ([], rest)
      else
        (cutAt? separator rest).map fun (before, after) => (c :: before, after)

/-- The text without the characters of a class at its end. -/
def dropEndWhile (belongs : Char → Bool) (text : Text) : Text :=
  (text.reverse.dropWhile belongs).reverse

/-- The text with the twenty-six capital letters A to Z written small. -/
def lowerAscii (text : Text) : Text :=
  text.map Char.toLower

/-- The decimal numeral of a natural number. -/
def ofNat (number : Nat) : Text :=
  Nat.toDigits 10 number

/-- The decimal numeral of an integer, with a hyphen before a negative one. -/
def ofInt : Int → Text
  | .ofNat number => ofNat number
  | .negSucc number => '-' :: ofNat (number + 1)

/-- Code-point order of texts: a proper beginning comes before its continuations. -/
def le : Text → Text → Bool
  | [], _ => true
  | _ :: _, [] => false
  | c :: first, d :: second =>
      if c = d then le first second else decide (c.toNat < d.toNat)

end Text

end TestAudit
