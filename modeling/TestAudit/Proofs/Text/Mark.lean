import TestAudit.Text.Basic

namespace TestAudit.Text

/-!
# Occurrences of marks

A mark is a text that others are searched for. Its occurrences in two texts add up to
those in the texts put together, unless one begins in the first and ends in the second.
Where no beginning of the mark stands at the end of the first text, none does.
-/

theorem afterStart?_eq_some_iff
    {text beginning rest : Text} :
    text.afterStart? beginning = some rest ↔
      text = beginning ++ rest := by
  induction beginning generalizing text with
  | nil =>
      cases text <;> simp [afterStart?]
  | cons d beginning inductionHypothesis =>
      cases text with
      | nil =>
          simp [afterStart?]
      | cons c text =>
          by_cases same : c = d
          · simp [afterStart?, same, inductionHypothesis]
          · simp [afterStart?, same]

/-- The number of places of a text at which a mark begins. -/
def occurrences (mark : Text) : Text → Nat
  | [] => 0
  | c :: rest => (if startsWith (c :: rest) mark then 1 else 0) + occurrences mark rest

/-- A mark that begins in the text does not go beyond it, whatever follows. -/
def Encloses (mark : Text) : Text → Prop
  | [] => True
  | c :: rest => (startsWith mark (c :: rest) → startsWith (c :: rest) mark) ∧ Encloses mark rest

instance Encloses.decidable (mark : Text) : (text : Text) → Decidable (Encloses mark text)
  | [] => inferInstanceAs (Decidable True)
  | _ :: rest =>
      have := Encloses.decidable mark rest
      inferInstanceAs (Decidable (_ ∧ _))

variable {mark first second : Text}

theorem startsWith_append
    (within : startsWith mark first → startsWith first mark) :
    startsWith (first ++ second) mark = startsWith first mark := by
  simp only [startsWith, List.isPrefixOf_iff_prefix] at within
  refine Bool.eq_iff_iff.mpr ?_
  simp only [startsWith, List.isPrefixOf_iff_prefix]
  constructor
  · intro begins
    rcases List.prefix_or_prefix_of_prefix begins (List.prefix_append first second) with
      inFirst | beyond
    · exact inFirst
    · exact within beyond
  · intro begins
    exact begins.trans (List.prefix_append first second)

theorem occurrences_append
    (encloses : Encloses mark first) :
    occurrences mark (first ++ second) =
      occurrences mark first + occurrences mark second := by
  induction first with
  | nil => simp [occurrences]
  | cons c rest inductionHypothesis =>
      have step := @startsWith_append _ _ second encloses.1
      rw [List.cons_append] at step
      rw [List.cons_append, occurrences, occurrences, step, inductionHypothesis encloses.2]
      omega

theorem Encloses.append
    (inFirst : Encloses mark first)
    (inSecond : Encloses mark second) :
    Encloses mark (first ++ second) := by
  induction first with
  | nil => exact inSecond
  | cons c rest inductionHypothesis =>
      refine ⟨fun begins => ?_, inductionHypothesis inFirst.2⟩
      simp only [startsWith, List.isPrefixOf_iff_prefix] at begins ⊢
      have partly : startsWith mark (c :: rest) := by
        simpa only [startsWith, List.isPrefixOf_iff_prefix] using
          (List.prefix_append (c :: rest) second).trans begins
      have whole := inFirst.1 partly
      simp only [startsWith, List.isPrefixOf_iff_prefix] at whole
      exact whole.trans (List.prefix_append _ _)

/-! ## Counted texts -/

/-- A text has a number of occurrences of a mark, and none goes beyond it. -/
structure Counts (mark text : Text) (count : Nat) : Prop where
  encloses : Encloses mark text
  occurrences : occurrences mark text = count

instance Counts.decidable (mark text : Text) (count : Nat) : Decidable (Counts mark text count) :=
  decidable_of_iff (Encloses mark text ∧ Text.occurrences mark text = count)
    ⟨fun both => ⟨both.1, both.2⟩, fun counts => ⟨counts.1, counts.2⟩⟩

theorem Counts.append
    {count more : Nat}
    (inFirst : Counts mark first count)
    (inSecond : Counts mark second more) :
    Counts mark (first ++ second) (count + more) where
  encloses := inFirst.encloses.append inSecond.encloses
  occurrences := by
    rw [occurrences_append inFirst.encloses, inFirst.occurrences, inSecond.occurrences]

/-- In a text without occurrences of a mark no mark begins, whatever follows the text. -/
theorem Counts.startsWith_drop
    (counts : Counts mark first 0)
    {offset : Nat}
    (inside : offset < first.length) :
    startsWith ((first ++ second).drop offset) mark = false := by
  induction first generalizing offset with
  | nil => cases inside
  | cons c rest inductionHypothesis =>
      obtain ⟨encloses, noOccurrence⟩ := counts
      rw [Text.occurrences, Nat.add_eq_zero_iff] at noOccurrence
      cases offset with
      | zero =>
          rw [List.drop_zero, startsWith_append encloses.1]
          refine Bool.eq_false_iff.mpr fun begins => ?_
          rw [if_pos begins] at noOccurrence
          cases noOccurrence.1
      | succ offset =>
          exact inductionHypothesis ⟨encloses.2, noOccurrence.2⟩ (Nat.lt_of_succ_lt_succ inside)

/-- A text without the first character of a mark has no occurrence of it. -/
theorem Counts.of_not_mem
    {opening : Char}
    {others text : Text}
    (absent : opening ∉ text) :
    Counts (opening :: others) text 0 := by
  induction text with
  | nil => exact ⟨trivial, rfl⟩
  | cons c rest inductionHypothesis =>
      simp only [List.mem_cons, not_or] at absent
      obtain ⟨differs, absentBehind⟩ := absent
      have behind := inductionHypothesis absentBehind
      refine ⟨⟨?_, behind.encloses⟩, ?_⟩
      · simp [startsWith, List.isPrefixOf, Ne.symm differs]
      · simp [Text.occurrences, startsWith, List.isPrefixOf, differs, behind.occurrences]

end TestAudit.Text
