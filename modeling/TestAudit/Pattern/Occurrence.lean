import TestAudit.Pattern.Basic

namespace TestAudit

/-!
# Occurrences of a pattern

A search goes through a region of a text from left to right. Where the pattern
matches, the match is an occurrence and the search goes on behind it; occurrences
therefore never overlap. What follows the region is not seen, but the character
before it is, since a word edge depends on it.
-/

/-- A part of a text from one offset up to another. -/
structure Region where
  text : Text
  start : Nat
  stop : Nat
  deriving Repr, DecidableEq

namespace Region

/-- The characters of the region. -/
def chars (region : Region) : Text :=
  (region.text.drop region.start).take (region.stop - region.start)

/-- The character just before the region, if there is one. -/
def before (region : Region) : Text :=
  if region.start = 0 then [] else (region.text.drop (region.start - 1)).take 1

/-- The region that is the whole of a text. -/
def whole (text : Text) : Region where
  text := text
  start := 0
  stop := text.length

end Region

/-- A region together with what was read out of its text, so that many searches can share it. -/
structure Excerpt where
  region : Region
  before : Text
  chars : Text
  deriving Repr, DecidableEq

/-- The excerpt that a region is. -/
def Region.excerpt (region : Region) : Excerpt where
  region := region
  before := region.before
  chars := region.chars

/-- A match: the offset at which it begins, and the characters that it takes. -/
structure Occurrence where
  offset : Nat
  matched : Text
  deriving Repr, DecidableEq

namespace Pattern

/--
The occurrences in the rest of a region, which begins at the given offset, once
the rest of the last match is passed over.
-/
def occurrencesFrom
    (pattern : Pattern) :
    (skip offset : Nat) →
    (before : Text) →
    Text →
    List Occurrence
  | _, _, _, [] => []
  | skip + 1, offset, before, c :: rest =>
      occurrencesFrom pattern skip (offset + 1) (c :: before) rest
  | 0, offset, before, c :: rest =>
      match pattern.matchLength? ⟨before, c :: rest⟩ with
      | none => occurrencesFrom pattern 0 (offset + 1) (c :: before) rest
      | some length =>
          ⟨offset, (c :: rest).take length⟩ ::
            occurrencesFrom pattern (length - 1) (offset + 1) (c :: before) rest

/-- The occurrences of a pattern in an excerpt, from left to right. -/
def occurrences (pattern : Pattern) (excerpt : Excerpt) : List Occurrence :=
  occurrencesFrom pattern 0 excerpt.region.start excerpt.before excerpt.chars

end Pattern

end TestAudit
