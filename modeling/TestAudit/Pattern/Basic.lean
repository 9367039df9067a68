import TestAudit.Text.Blank
import TestAudit.Text.Word

namespace TestAudit

/-!
# Patterns

A pattern is tried at a place between two characters. It has a list of ends, the
places where a match that begins there may stop, in the order in which they are
preferred: an earlier alternative before a later one, and a longer repetition
before a shorter one. The first end is where the match stops.

A place keeps what stands before it, so that word edges can be told, and what is
left to match. A search in a part of a text leaves out what follows the part.
-/

/-- The characters that one position of a pattern accepts. -/
inductive CharSet where
  | exactly (c : Char)
  | oneOf (chars : Text)
  | noneOf (chars : Text)
  | blank
  | word
  deriving Repr, DecidableEq

namespace CharSet

/-- Whether a character belongs to the set. -/
def accepts : CharSet → Char → Bool
  | .exactly c, d => c == d
  | .oneOf chars, d => chars.contains d
  | .noneOf chars, d => !chars.contains d
  | .blank, d => Text.isBlank d
  | .word, d => Text.isWord d

end CharSet

/-- A place in a text: the characters before it, the nearest first, and those after it. -/
structure Place where
  before : Text
  after : Text
  deriving Repr, DecidableEq

namespace Place

/-- Whether the character just before the place is a word character. -/
def wordBefore (place : Place) : Bool :=
  place.before.head?.any Text.isWord

/-- Whether the character just after the place is a word character. -/
def wordAfter (place : Place) : Bool :=
  place.after.head?.any Text.isWord

end Place

/-- A pattern of characters. -/
inductive Pattern where
  /-- Matches without taking a character. -/
  | nothing
  /-- Takes one character of a set. -/
  | one (set : CharSet)
  /-- Takes characters of a set, as many as there are or fewer. -/
  | many (set : CharSet)
  /-- Takes what the first pattern takes and then what the second one takes. -/
  | andThen (first second : Pattern)
  /-- Takes what the first pattern takes, or else what the second one takes. -/
  | orElse (first second : Pattern)
  /-- Matches without taking a character where the pattern does not match. -/
  | notAhead (pattern : Pattern)
  /-- Matches without taking a character between a word character and none. -/
  | wordEdge
  deriving Repr, DecidableEq

namespace Pattern

/--
The places reached by passing over characters of a set, the farthest first; the
places already passed come last.
-/
def passing (set : CharSet) (passed : List Place) (before : Text) : Text → List Place
  | [] => ⟨before, []⟩ :: passed
  | c :: rest =>
      if set.accepts c then
        passing set (⟨before, c :: rest⟩ :: passed) (c :: before) rest
      else
        ⟨before, c :: rest⟩ :: passed

/-- The places where a match that begins at a place may stop, the preferred one first. -/
def ends : Pattern → Place → List Place
  | .nothing, place => [place]
  | .one set, ⟨before, c :: rest⟩ => if set.accepts c then [⟨c :: before, rest⟩] else []
  | .one _, ⟨_, []⟩ => []
  | .many set, ⟨before, after⟩ => passing set [] before after
  | .andThen first second, place => (first.ends place).flatMap second.ends
  | .orElse first second, place => first.ends place ++ second.ends place
  | .notAhead pattern, place => if (pattern.ends place).isEmpty then [place] else []
  | .wordEdge, place => if place.wordBefore != place.wordAfter then [place] else []

/-- The number of characters that the match at a place takes, if there is one. -/
def matchLength? (pattern : Pattern) (place : Place) : Option Nat :=
  (pattern.ends place).head?.map fun stop => place.after.length - stop.after.length

/-! ## Composite patterns -/

/-- Takes the characters of a text one after the other. -/
def literally (text : Text) : Pattern :=
  text.foldr (fun c rest => .andThen (.one (.exactly c)) rest) .nothing

/-- Takes what each of the patterns takes, in order. -/
def inOrder (patterns : List Pattern) : Pattern :=
  patterns.foldr .andThen .nothing

/-- Takes what the first of the patterns that leads to a match takes. -/
def firstOf : List Pattern → Pattern
  | [] => .notAhead .nothing
  | [pattern] => pattern
  | pattern :: others => .orElse pattern (firstOf others)

/-- Takes what the pattern takes, or nothing. -/
def optional (pattern : Pattern) : Pattern :=
  .orElse pattern .nothing

/-- Takes one or more characters of a set. -/
def oneOrMore (set : CharSet) : Pattern :=
  .andThen (.one set) (.many set)

/-- Takes the characters of one of the texts. -/
def anyText (texts : List Text) : Pattern :=
  firstOf (texts.map literally)

end Pattern

end TestAudit
