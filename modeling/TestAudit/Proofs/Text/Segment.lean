import Mathlib.Data.List.Forall2
import TestAudit.Text.Segment

namespace TestAudit.Text

/-!
# Tokens that are written anew

Replacing tokens goes through the segments of a text: a plain character stays, a token is
written anew, and what is left behind it is treated on its own.
-/

theorem forall₂_segmentsFrom
    {related : Char → Char → Prop}
    {recognise : Recogniser}
    {render : Text → Text}
    (plain : ∀ c, related c c)
    (token : ∀ found, List.Forall₂ related found (render found))
    (skip : Nat)
    (text : Text) :
    List.Forall₂ related (text.drop skip)
      ((segmentsFrom recognise skip text).flatMap fun
        | .plain c => [c]
        | .token found => render found) := by
  induction text generalizing skip with
  | nil => simp [segmentsFrom]
  | cons c rest inductionHypothesis =>
      cases skip with
      | succ skip =>
          simpa [segmentsFrom] using inductionHypothesis skip
      | zero =>
          simp only [List.drop_zero, segmentsFrom]
          split
          · simpa using And.intro (plain c) (inductionHypothesis 0)
          · next more _ =>
              rw [List.flatMap_cons,
                show c :: rest = (c :: rest.take more) ++ rest.drop more by simp]
              exact List.rel_append (token _) (inductionHypothesis more)

theorem segmentsFrom_skip
    (recognise : Recogniser)
    (skip : Nat)
    (text : Text) :
    segmentsFrom recognise skip text = segmentsFrom recognise 0 (text.drop skip) := by
  induction skip generalizing text with
  | zero => rfl
  | succ skip inductionHypothesis =>
      cases text with
      | nil => simp [segmentsFrom]
      | cons c rest => exact inductionHypothesis rest

theorem replaceTokens_of_plain
    {recognise : Recogniser}
    {render : Text → Text}
    {c : Char}
    {rest : Text}
    (plain : recognise (c :: rest) = none) :
    replaceTokens recognise render (c :: rest) =
      c :: replaceTokens recognise render rest := by
  simp [replaceTokens, segments, segmentsFrom, plain]

theorem replaceTokens_of_token
    {recognise : Recogniser}
    {render : Text → Text}
    {c : Char}
    {rest : Text}
    {more : Nat}
    (token : recognise (c :: rest) = some more) :
    replaceTokens recognise render (c :: rest) =
      render (c :: rest.take more) ++ replaceTokens recognise render (rest.drop more) := by
  simp [replaceTokens, segments, segmentsFrom, token, segmentsFrom_skip recognise more]

end TestAudit.Text
