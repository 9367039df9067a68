import TestAudit.Proofs.Numeric.Binary64
import TestAudit.Proofs.Text.Numeral
import TestAudit.Run.Duration

namespace TestAudit.Duration

/-!
# Durations that can be shown

Below a second a duration is shown by its numeral, so a negative one fails when it has
too many digits. From a second on it is shown by the nearest binary64 value, so it fails
when it has none.
-/

/-- An integer has few enough digits for a numeral. -/
def HasNumeral (number : Int) : Prop :=
  number.natAbs < powerOfTen Text.digitLimit

theorem exceedsDigitLimit_eq_false_iff
    {number : Int} :
    exceedsDigitLimit number = false ↔ HasNumeral number := by
  simp [exceedsDigitLimit, HasNumeral]

/-- A number of milliseconds has a numeral if it is negative, and a nearest number of seconds. -/
def Showable (milliseconds : Int) : Prop :=
  -powerOfTen Text.digitLimit < milliseconds ∧ milliseconds < Binary64.overflowBound * 1000

instance HasNumeral.decidable (number : Int) : Decidable (HasNumeral number) :=
  Nat.decLt number.natAbs _

instance Showable.decidable (milliseconds : Int) : Decidable (Showable milliseconds) :=
  inferInstanceAs (Decidable (_ ∧ _))

theorem thousand_le_powerOfTen_digitLimit : 1000 ≤ powerOfTen Text.digitLimit :=
  powerOfTen_le_powerOfTen (show 3 ≤ Text.digitLimit by decide)

/-- A duration is shown just when it lies between the two bounds. -/
theorem exists_show?_iff
    {milliseconds : Int} :
    (∃ text, show? milliseconds = .ok text) ↔ Showable milliseconds := by
  have numerals := thousand_le_powerOfTen_digitLimit
  unfold show? Showable
  split
  next short =>
    have belowBound : milliseconds < Binary64.overflowBound * 1000 := by
      have := Binary64.overflowBound_pos
      omega
    cases exceeds : exceedsDigitLimit milliseconds with
    | false =>
        have hasNumeral := exceedsDigitLimit_eq_false_iff.mp exceeds
        unfold HasNumeral at hasNumeral
        refine iff_of_true ⟨_, rfl⟩ ⟨?_, belowBound⟩
        omega
    | true =>
        have noNumeral : ¬ HasNumeral milliseconds := by
          rw [← exceedsDigitLimit_eq_false_iff, exceeds]
          simp
        unfold HasNumeral at noNumeral
        refine iff_of_false (by simp) ?_
        omega
  next long =>
    have overflows :=
      @Binary64.nearest?_eq_none_iff milliseconds.toNat 1000 (by omega) (by decide)
    cases nearest : Binary64.nearest? milliseconds.toNat 1000 with
    | none =>
        have reached := overflows.mp nearest
        refine iff_of_false (by simp) ?_
        omega
    | some found =>
        have below := mt overflows.mpr (by simp [nearest])
        refine iff_of_true ⟨_, rfl⟩ ?_
        omega

end TestAudit.Duration
