import TestAudit.Proofs.Pattern.Match

namespace TestAudit

/-!
# Where a pattern occurs

An occurrence is a match at its offset of the region that is searched, so it lies
in the region. The first character of an occurrence of a solid pattern is a
character of the text there.
-/

namespace Region

theorem getElem?_chars
    {region : Region}
    {index : Nat}
    (inside : index < region.stop - region.start) :
    region.chars[index]? = region.text[region.start + index]? := by
  rw [chars, List.getElem?_take_of_lt inside, List.getElem?_drop]

/-- A character of a region stands in its text. -/
theorem getElem?_text
    {region : Region}
    {index : Nat}
    {c : Char}
    (here : region.chars[index]? = some c) :
    region.text[region.start + index]? = some c := by
  have within := (List.getElem?_eq_some_iff.mp here).1
  rw [chars, List.length_take] at within
  rw [← getElem?_chars (by omega)]
  exact here

end Region

namespace Pattern

/-- A match of a pattern in a region, wherever in the region it begins. -/
def MatchesIn (pattern : Pattern) (region : Region) (occurrence : Occurrence) : Prop :=
  ∃ passed rest length,
    region.chars = passed ++ rest ∧
      occurrence.offset = region.start + passed.length ∧
      pattern.matchLength? ⟨passed.reverse ++ region.before, rest⟩ = some length ∧
      occurrence.matched = rest.take length

/-- What a match takes stands in the text of the region. -/
theorem MatchesIn.getElem?_text
    {pattern : Pattern}
    {region : Region}
    {occurrence : Occurrence}
    (isMatch : pattern.MatchesIn region occurrence)
    {index : Nat}
    {c : Char}
    (here : occurrence.matched[index]? = some c) :
    region.text[occurrence.offset + index]? = some c := by
  obtain ⟨passed, rest, length, shape, place, _, matched⟩ := isMatch
  have inMatch := (List.getElem?_eq_some_iff.mp here).1
  rw [matched, List.length_take] at inMatch
  rw [matched, List.getElem?_take_of_lt (by omega)] at here
  rw [place, Nat.add_assoc]
  apply Region.getElem?_text
  rw [shape, List.getElem?_append_right (Nat.le_add_right _ _), Nat.add_sub_cancel_left]
  exact here

/-- An occurrence is a match behind the characters that were passed. -/
theorem exists_of_mem_occurrencesFrom
    {pattern : Pattern}
    {skip offset : Nat}
    {before chars : Text}
    {occurrence : Occurrence}
    (member : occurrence ∈ pattern.occurrencesFrom skip offset before chars) :
    ∃ passed rest length,
      chars = passed ++ rest ∧
        rest ≠ [] ∧
        occurrence.offset = offset + passed.length ∧
        pattern.matchLength? ⟨passed.reverse ++ before, rest⟩ = some length ∧
        occurrence.matched = rest.take length := by
  induction chars generalizing skip offset before with
  | nil =>
      cases skip <;> simp [occurrencesFrom] at member
  | cons c rest inductionHypothesis =>
      -- Whatever stands at `c`, an occurrence behind it is one of the rest.
      have behind
          {later : Nat}
          (inRest :
            occurrence ∈
              pattern.occurrencesFrom later (offset + 1) (c :: before) rest) :
          ∃ passed remaining length,
            c :: rest = passed ++ remaining ∧
              remaining ≠ [] ∧
              occurrence.offset = offset + passed.length ∧
              pattern.matchLength? ⟨passed.reverse ++ before, remaining⟩ = some length ∧
              occurrence.matched = remaining.take length := by
        obtain ⟨passed, remaining, length, shape, nonempty, place, found, matched⟩ :=
          inductionHypothesis inRest
        refine ⟨c :: passed, remaining, length, by rw [shape]; rfl, nonempty, ?_, ?_, matched⟩
        · simp only [List.length_cons]
          omega
        · simpa using found
      cases skip with
      | succ skip => exact behind member
      | zero =>
          unfold occurrencesFrom at member
          split at member
          · exact behind member
          · next length found =>
              rcases List.mem_cons.mp member with rfl | inRest
              · exact ⟨[], c :: rest, length, rfl, by simp, rfl, found, rfl⟩
              · exact behind inRest

theorem matchesIn_of_mem_occurrences
    {pattern : Pattern}
    {region : Region}
    {occurrence : Occurrence}
    (member : occurrence ∈ pattern.occurrences region.excerpt) :
    pattern.MatchesIn region occurrence := by
  obtain ⟨passed, rest, length, shape, _, place, found, matched⟩ :=
    exists_of_mem_occurrencesFrom member
  exact ⟨passed, rest, length, shape, place, found, matched⟩

theorem offset_of_mem_occurrences
    {pattern : Pattern}
    {region : Region}
    {occurrence : Occurrence}
    (member : occurrence ∈ pattern.occurrences region.excerpt) :
    region.start ≤ occurrence.offset ∧ occurrence.offset < region.stop ∧
      occurrence.offset < region.text.length := by
  obtain ⟨passed, rest, length, shape, nonempty, place, _, _⟩ :=
    exists_of_mem_occurrencesFrom member
  have startShape : region.excerpt.region.start = region.start := rfl
  have lengths := congrArg List.length shape
  have restLength : 0 < rest.length := List.length_pos_iff.mpr nonempty
  simp only [Region.excerpt, Region.chars, List.length_take, List.length_drop,
    List.length_append] at lengths
  omega

/-- The first character of an occurrence has what all sets that begin the pattern have. -/
theorem getElem?_of_mem_occurrences_of_beginsIn
    {property : Char → Bool}
    {pattern : Pattern}
    {region : Region}
    {occurrence : Occurrence}
    (begins : pattern.beginsIn (·.consistsOf property) = true)
    (member : occurrence ∈ pattern.occurrences region.excerpt) :
    ∃ c, region.text[occurrence.offset]? = some c ∧ property c = true := by
  have isMatch := matchesIn_of_mem_occurrences member
  obtain ⟨passed, rest, length, _, _, found, matched⟩ := id isMatch
  obtain ⟨positive, c, after, restShape, holds⟩ := matchLength?_of_beginsIn begins found
  obtain rfl : rest = c :: after := restShape
  refine ⟨c, @MatchesIn.getElem?_text _ _ _ isMatch 0 c ?_, holds⟩
  rw [matched, List.getElem?_take_of_lt positive]
  rfl

/-- An occurrence of a solid pattern begins with a character of the text that is not blank. -/
theorem getElem?_of_mem_occurrences
    {pattern : Pattern}
    {region : Region}
    {occurrence : Occurrence}
    (solid : pattern.isSolid = true)
    (member : occurrence ∈ pattern.occurrences region.excerpt) :
    ∃ c, region.text[occurrence.offset]? = some c ∧ Text.isBlank c = false := by
  rw [isSolid_eq_beginsIn] at solid
  simpa using getElem?_of_mem_occurrences_of_beginsIn solid member

/-- A search for a solid pattern passes over blanks. -/
theorem occurrencesFrom_append_of_isBlank
    {pattern : Pattern}
    {offset : Nat}
    {before blanks rest : Text}
    (solid : pattern.isSolid = true)
    (blank : ∀ c ∈ blanks, Text.isBlank c = true) :
    pattern.occurrencesFrom 0 offset before (blanks ++ rest) =
      pattern.occurrencesFrom 0 (offset + blanks.length) (blanks.reverse ++ before) rest := by
  induction blanks generalizing offset before with
  | nil => rfl
  | cons c blanks inductionHypothesis =>
      have headBlank : Text.isBlank c = true := blank c List.mem_cons_self
      have noMatch : pattern.matchLength? ⟨before, c :: (blanks ++ rest)⟩ = none := by
        cases found : pattern.matchLength? ⟨before, c :: (blanks ++ rest)⟩ with
        | none => rfl
        | some length =>
            obtain ⟨_, d, after, shape, notBlank⟩ := matchLength?_of_isSolid solid found
            obtain rfl : c = d := (List.cons.inj shape).1
            simp [headBlank] at notBlank
      have further :=
        @inductionHypothesis (offset + 1) (c :: before)
          (fun d member => blank d (List.mem_cons_of_mem c member))
      rw [List.cons_append, occurrencesFrom, noMatch]
      simp only [further, List.length_cons, List.reverse_cons, List.append_assoc,
        List.singleton_append]
      congr 1
      omega

end Pattern

end TestAudit
