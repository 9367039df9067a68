import TestAudit.Proofs.Pattern.Match

namespace TestAudit.Pattern

/-!
# Last characters of a match

Which characters a match can end with is told by the pattern alone, as far as its sets
of characters tell it. A pattern at the end that may take nothing counts as long as
whatever it takes would do as well.
-/

/-- Whether a pattern can be told to take characters of good sets only. -/
def staysIn (good : CharSet → Bool) : Pattern → Bool
  | .one set | .many set => good set
  | .andThen first second | .orElse first second => first.staysIn good && second.staysIn good
  | .nothing | .notAhead _ | .wordEdge => true

/-- Whether a pattern can be told to take a character of a good set after all others. -/
def endsIn (good : CharSet → Bool) : Pattern → Bool
  | .one set => good set
  | .andThen first second => second.endsIn good || (second.staysIn good && first.endsIn good)
  | .orElse first second => first.endsIn good && second.endsIn good
  | .nothing | .many _ | .notAhead _ | .wordEdge => false

variable {good : CharSet → Bool} {pattern : Pattern} {place stop : Place}

theorem good_of_mem_ends_of_staysIn
    (stays : pattern.staysIn good = true)
    (member : stop ∈ pattern.ends place) :
    ∃ taken,
      (∀ c ∈ taken, ∃ set, good set = true ∧ set.accepts c = true) ∧
        place.Taking taken stop := by
  induction pattern generalizing place stop with
  | one set =>
      obtain ⟨c, accepted, takes⟩ := taking_of_mem_ends_one member
      refine ⟨[c], ?_, takes⟩
      intro d isTaken
      rw [List.mem_singleton.mp isTaken]
      exact ⟨set, stays, accepted⟩
  | many set =>
      obtain ⟨taken, accepted, takes⟩ := taking_of_mem_ends_many member
      exact ⟨taken, fun c isTaken => ⟨set, stays, accepted c isTaken⟩, takes⟩
  | andThen first second firstHypothesis secondHypothesis =>
      simp only [staysIn, Bool.and_eq_true] at stays
      obtain ⟨middle, toMiddle, toStop⟩ := mem_ends_andThen member
      obtain ⟨firstTaken, firstGood, takesFirst⟩ := firstHypothesis stays.1 toMiddle
      obtain ⟨secondTaken, secondGood, takesSecond⟩ := secondHypothesis stays.2 toStop
      refine ⟨_, ?_, takesFirst.trans takesSecond⟩
      intro c isTaken
      rcases List.mem_append.mp isTaken with inFirst | inSecond
      · exact firstGood c inFirst
      · exact secondGood c inSecond
  | orElse first second firstHypothesis secondHypothesis =>
      simp only [staysIn, Bool.and_eq_true] at stays
      rcases List.mem_append.mp member with inFirst | inSecond
      · exact firstHypothesis stays.1 inFirst
      · exact secondHypothesis stays.2 inSecond
  | nothing | notAhead | wordEdge =>
      have same : stop = place := eq_of_mem_ends_of_isStill rfl member
      exact ⟨[], by simp, same ▸ .refl _⟩

/-- The last character of a match belongs to one of the good sets. -/
theorem exists_last_of_mem_ends
    (endsGood : pattern.endsIn good = true)
    (member : stop ∈ pattern.ends place) :
    ∃ set c taken,
      good set = true ∧ set.accepts c = true ∧ place.Taking (taken ++ [c]) stop := by
  induction pattern generalizing place stop with
  | one set =>
      obtain ⟨c, accepted, takes⟩ := taking_of_mem_ends_one member
      exact ⟨set, c, [], endsGood, accepted, takes⟩
  | andThen first second firstHypothesis secondHypothesis =>
      simp only [endsIn, Bool.or_eq_true, Bool.and_eq_true] at endsGood
      obtain ⟨middle, toMiddle, toStop⟩ := mem_ends_andThen member
      rcases endsGood with secondEnds | ⟨secondStays, firstEnds⟩
      · obtain ⟨set, c, taken, isGood, accepted, takesSecond⟩ :=
          secondHypothesis secondEnds toStop
        obtain ⟨front, takesFirst⟩ := taking_of_mem_ends toMiddle
        refine ⟨set, c, front ++ taken, isGood, accepted, ?_⟩
        rw [List.append_assoc]
        exact takesFirst.trans takesSecond
      · obtain ⟨set, c, front, isGood, accepted, takesFirst⟩ := firstHypothesis firstEnds toMiddle
        obtain ⟨more, moreGood, takesSecond⟩ := good_of_mem_ends_of_staysIn secondStays toStop
        have takes := takesFirst.trans takesSecond
        -- The second pattern may take nothing, and then the first one takes the last character.
        rcases List.eq_nil_or_concat more with rfl | ⟨middleTaken, last, rfl⟩
        · rw [List.append_nil] at takes
          exact ⟨set, c, front, isGood, accepted, takes⟩
        · obtain ⟨lastSet, lastGood, lastAccepted⟩ := moreGood last (by simp)
          refine ⟨lastSet, last, front ++ [c] ++ middleTaken, lastGood, lastAccepted, ?_⟩
          rw [List.concat_eq_append, ← List.append_assoc] at takes
          exact takes
  | orElse first second firstHypothesis secondHypothesis =>
      simp only [endsIn, Bool.and_eq_true] at endsGood
      rcases List.mem_append.mp member with inFirst | inSecond
      · exact firstHypothesis endsGood.1 inFirst
      · exact secondHypothesis endsGood.2 inSecond
  | nothing | many | notAhead | wordEdge => cases endsGood

end TestAudit.Pattern
