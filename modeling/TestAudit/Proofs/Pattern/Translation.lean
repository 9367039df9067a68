import TestAudit.Proofs.Pattern.Occurrence
import TestAudit.Proofs.Text.CharacterClass

namespace TestAudit

/-!
# Occurrences behind a text

A pattern sees of the text before a place at most whether its last character is a word
character. So what stands before a region takes no part in the matches, unless it ends in
a word character, and a search that begins at a greater offset finds the same matches at
greater offsets.
-/

/-- The place with a text put before all that stands before it. -/
def Place.precededBy (place : Place) (more : Text) : Place where
  before := place.before ++ more
  after := place.after

/-- The occurrence at an offset that is greater by a distance. -/
def Occurrence.movedBy (distance : Nat) (occurrence : Occurrence) : Occurrence where
  offset := occurrence.offset + distance
  matched := occurrence.matched

namespace Pattern

theorem passing_precededBy
    (set : CharSet)
    (passed : List Place)
    (before after more : Text) :
    passing set (passed.map (·.precededBy more)) (before ++ more) after =
      (passing set passed before after).map (·.precededBy more) := by
  induction after generalizing passed before with
  | nil => rfl
  | cons c after inductionHypothesis =>
      rw [passing, passing]
      split
      · rw [← inductionHypothesis]
        rfl
      · rfl

section NoWord

variable {more : Text} (noWord : more.head?.any Text.isWord = false)

include noWord

/-- What does not end in a word character makes no difference to the matches behind it. -/
theorem ends_precededBy
    (pattern : Pattern)
    (place : Place) :
    pattern.ends (place.precededBy more) =
      (pattern.ends place).map (·.precededBy more) := by
  induction pattern generalizing place with
  | nothing => rfl
  | one set =>
      rcases place with ⟨before, _ | ⟨c, after⟩⟩
      · rfl
      · by_cases accepted : set.accepts c <;> simp [ends, Place.precededBy, accepted]
  | many set => exact passing_precededBy set [] place.before place.after more
  | andThen first second firstHypothesis secondHypothesis =>
      simp only [ends, firstHypothesis, List.flatMap_map, List.map_flatMap, secondHypothesis]
  | orElse first second firstHypothesis secondHypothesis =>
      simp only [ends, firstHypothesis, secondHypothesis, List.map_append]
  | notAhead pattern inductionHypothesis =>
      simp only [ends, inductionHypothesis, List.isEmpty_map]
      split <;> rfl
  | wordEdge =>
      have sameBefore : (place.precededBy more).wordBefore = place.wordBefore := by
        rcases place with ⟨_ | ⟨c, before⟩, after⟩
        · exact noWord
        · rfl
      have sameAfter : (place.precededBy more).wordAfter = place.wordAfter := rfl
      simp only [ends, sameBefore, sameAfter]
      split <;> rfl

theorem matchLength?_precededBy
    (pattern : Pattern)
    (place : Place) :
    pattern.matchLength? (place.precededBy more) = pattern.matchLength? place := by
  simp only [matchLength?, ends_precededBy noWord, List.head?_map, Option.map_map]
  rfl

theorem occurrencesFrom_precededBy
    (pattern : Pattern)
    (skip offset : Nat)
    (before chars : Text) :
    pattern.occurrencesFrom skip offset (before ++ more) chars =
      pattern.occurrencesFrom skip offset before chars := by
  induction chars generalizing skip offset before with
  | nil => cases skip <;> rfl
  | cons c rest inductionHypothesis =>
      cases skip with
      | succ skip => exact inductionHypothesis skip (offset + 1) (c :: before)
      | zero =>
          have sameMatch :
              pattern.matchLength? ⟨before ++ more, c :: rest⟩ =
                pattern.matchLength? ⟨before, c :: rest⟩ :=
            matchLength?_precededBy noWord pattern ⟨before, c :: rest⟩
          have further (later : Nat) := inductionHypothesis later (offset + 1) (c :: before)
          simp only [List.cons_append] at further
          simp only [occurrencesFrom, sameMatch, further]

end NoWord

/-- A search that begins at a greater offset finds the same matches at greater offsets. -/
theorem occurrencesFrom_add
    (pattern : Pattern)
    (skip offset distance : Nat)
    (before chars : Text) :
    pattern.occurrencesFrom skip (offset + distance) before chars =
      (pattern.occurrencesFrom skip offset before chars).map (·.movedBy distance) := by
  induction chars generalizing skip offset before with
  | nil => cases skip <;> rfl
  | cons c rest inductionHypothesis =>
      have further (later : Nat) :
          pattern.occurrencesFrom later (offset + distance + 1) (c :: before) rest =
            (pattern.occurrencesFrom later (offset + 1) (c :: before) rest).map
              (·.movedBy distance) := by
        rw [Nat.add_right_comm]
        exact inductionHypothesis later (offset + 1) (c :: before)
      cases skip with
      | succ skip => exact further skip
      | zero =>
          simp only [occurrencesFrom, further]
          split <;> rfl

/-- Blanks before a text move the occurrences of a solid pattern. -/
theorem occurrencesFrom_behind_blanks
    {pattern : Pattern}
    {blanks : Text}
    (solid : pattern.isSolid = true)
    (areBlank : ∀ c ∈ blanks, Text.isBlank c = true)
    (chars : Text) :
    pattern.occurrencesFrom 0 0 [] (blanks ++ chars) =
      (pattern.occurrencesFrom 0 0 [] chars).map (·.movedBy blanks.length) := by
  have noWord : blanks.reverse.head?.any Text.isWord = false := by
    rw [Option.any_eq_false]
    intro c isHead
    exact Text.isWord_of_isBlank (areBlank c (List.mem_reverse.mp (List.mem_of_mem_head? isHead)))
  rw [occurrencesFrom_append_of_isBlank solid areBlank, List.append_nil, Nat.zero_add,
    ← List.nil_append blanks.reverse, occurrencesFrom_precededBy noWord]
  simpa using occurrencesFrom_add pattern 0 0 blanks.length [] chars

end Pattern

end TestAudit
