import TestAudit.Text.Basic

namespace TestAudit.Text

/-!
# The order of texts

Texts are ordered by their code points, and the order is linear.
-/

theorem le_total
    (first second : Text) :
    le first second = true ∨ le second first = true := by
  induction first generalizing second with
  | nil => exact Or.inl rfl
  | cons c first inductionHypothesis =>
      cases second with
      | nil => exact Or.inr rfl
      | cons d second =>
          by_cases same : c = d
          · subst same
            simpa [le] using inductionHypothesis second
          · have codes : c.toNat ≠ d.toNat :=
              fun equal => same (Char.toNat_inj.mp equal)
            have reversed : d ≠ c := Ne.symm same
            simp only [le, same, reversed, ↓reduceIte, decide_eq_true_eq]
            omega

theorem le_trans
    {first second third : Text}
    (before : le first second = true)
    (after : le second third = true) :
    le first third = true := by
  induction first generalizing second third with
  | nil => rfl
  | cons c first inductionHypothesis =>
      cases second with
      | nil => simp [le] at before
      | cons d second =>
          cases third with
          | nil => simp [le] at after
          | cons e third =>
              by_cases firstSame : c = d
              · subst firstSame
                by_cases secondSame : c = e
                · subst secondSame
                  simp only [le, ↓reduceIte] at before after ⊢
                  exact inductionHypothesis before after
                · simpa [le, secondSame] using after
              · by_cases secondSame : d = e
                · subst secondSame
                  simpa [le, firstSame] using before
                · simp only [le, firstSame, secondSame, ↓reduceIte,
                    decide_eq_true_eq] at before after
                  have outerNe : c ≠ e := by
                    rintro rfl
                    omega
                  simp only [le, outerNe, ↓reduceIte, decide_eq_true_eq]
                  omega

theorem le_antisymm
    {first second : Text}
    (before : le first second = true)
    (after : le second first = true) :
    first = second := by
  induction first generalizing second with
  | nil =>
      cases second with
      | nil => rfl
      | cons d second => simp [le] at after
  | cons c first inductionHypothesis =>
      cases second with
      | nil => simp [le] at before
      | cons d second =>
          by_cases same : c = d
          · subst same
            simp only [le, ↓reduceIte] at before after
            rw [inductionHypothesis before after]
          · have reversed : d ≠ c := Ne.symm same
            simp only [le, same, reversed, ↓reduceIte, decide_eq_true_eq] at before after
            omega

end TestAudit.Text
