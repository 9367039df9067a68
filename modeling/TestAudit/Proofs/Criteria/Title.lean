import TestAudit.Criteria.Criterion
import TestAudit.Proofs.Text.Mark

namespace TestAudit.Title

/-!
# Identifiers in titles

What is read as an identifier at the beginning of a title is the mark and at least one
digit, so it is an identifier of a criterion.
-/

/-- The mark of an identifier and at least one digit, and nothing else. -/
def IsIdentifier (id : Text) : Prop :=
  ∃ digits, id = idMark ++ digits ∧ digits ≠ [] ∧ ∀ c ∈ digits, Text.isDigit c = true

theorem IsIdentifier.isId
    {id : Text}
    (identifier : IsIdentifier id) :
    Criterion.isId id = true := by
  obtain ⟨digits, rfl, notEmpty, areDigits⟩ := identifier
  rw [Criterion.isId, Text.afterStart?_eq_some_iff.mpr rfl]
  cases digits with
  | nil => exact (notEmpty rfl).elim
  | cons digit digits =>
      refine List.all_eq_true.mpr fun c member => ?_
      rw [Text.isRecentDigit, areDigits c member, Bool.true_or]

/-- A text that begins with an identifier is the identifier and the rest. -/
theorem idAtStart?_eq_some
    {text id rest : Text}
    (found : idAtStart? text = some (id, rest)) :
    text = id ++ rest ∧ IsIdentifier id := by
  unfold idAtStart? at found
  split at found
  next => cases found
  next behind isBehind =>
    split at found
    next => cases found
    next notEmpty =>
      cases found
      have areDigits := @List.all_takeWhile _ Text.isDigit behind
      refine ⟨?_, _, rfl, notEmpty, List.all_eq_true.mp areDigits⟩
      rw [List.append_assoc, List.takeWhile_append_dropWhile]
      exact Text.afterStart?_eq_some_iff.mp isBehind

/-- A text that is an identifier and nothing else is one. -/
theorem isIdentifier_of_isId
    {text : Text}
    (isId : isId text = true) :
    IsIdentifier text := by
  unfold Title.isId at isId
  split at isId
  next id rest found =>
    obtain ⟨rfl, identifier⟩ := idAtStart?_eq_some found
    rwa [List.isEmpty_iff.mp isId, List.append_nil]
  next => cases isId

theorem isId_of_criterion?
    {title id : Text}
    (named : criterion? title = some id) :
    Criterion.isId id = true := by
  obtain ⟨⟨_, rest⟩, found, rfl⟩ := Option.map_eq_some_iff.mp named
  exact (idAtStart?_eq_some found).2.isId

theorem isIdentifier_of_described?
    {title id description : Text}
    (described : described? title = some (id, description)) :
    IsIdentifier id := by
  unfold described? at described
  split at described
  next => cases described
  next found =>
    obtain ⟨_, _, isPair⟩ := Option.map_eq_some_iff.mp described
    cases isPair
    exact (idAtStart?_eq_some found).2

end TestAudit.Title
