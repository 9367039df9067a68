import TestAudit.Numeric.Binary64
import TestAudit.Text.Numeral

namespace TestAudit

/-!
# Bounds of integers that are read

A numeral has a limited number of digits, each less than ten, so the integer that it
denotes is less than the power of ten with that exponent.
-/

theorem powerOfTen_le_powerOfTen
    {small large : Nat}
    (le : small ≤ large) :
    powerOfTen small ≤ powerOfTen large :=
  Nat.pow_le_pow_right (by decide) le

namespace Text

theorem digitValue?_lt_ten
    {c : Char}
    {digit : Nat}
    (isDigit : digitValue? c = some digit) :
    digit < 10 := by
  obtain ⟨first, found, rfl⟩ := Option.map_eq_some_iff.mp isDigit
  have inRun := List.find?_some found
  simp at inRun
  omega

theorem separatedDigits?_lt_ten
    {text : Text}
    {digits : List Nat}
    (read : separatedDigits? text = some digits) :
    ∀ digit ∈ digits, digit < 10 := by
  fun_induction separatedDigits? text generalizing digits with
  | case1 => cases read
  | case2 c =>
      obtain ⟨digit, isDigit, rfl⟩ := Option.map_eq_some_iff.mp read
      exact List.forall_mem_singleton.mpr (digitValue?_lt_ten isDigit)
  | case3 c rest inductionHypothesis =>
      obtain ⟨digit, isDigit, others⟩ := Option.bind_eq_some_iff.mp read
      obtain ⟨behind, areDigits, rfl⟩ := Option.map_eq_some_iff.mp others
      exact List.forall_mem_cons.mpr ⟨digitValue?_lt_ten isDigit, inductionHypothesis areDigits⟩
  | case4 c rest _ _ inductionHypothesis =>
      obtain ⟨digit, isDigit, others⟩ := Option.bind_eq_some_iff.mp read
      obtain ⟨behind, areDigits, rfl⟩ := Option.map_eq_some_iff.mp others
      exact List.forall_mem_cons.mpr ⟨digitValue?_lt_ten isDigit, inductionHypothesis areDigits⟩

/-- Digits behind a number denote less than the next number with as many zeros. -/
theorem foldl_digits_lt
    {digits : List Nat}
    (areDigits : ∀ digit ∈ digits, digit < 10)
    (number : Nat) :
    digits.foldl (fun number digit => 10 * number + digit) number <
      (number + 1) * powerOfTen digits.length := by
  induction digits generalizing number with
  | nil => simp [powerOfTen]
  | cons digit others inductionHypothesis =>
      rw [List.forall_mem_cons] at areDigits
      have isBelow : 10 * number + digit + 1 ≤ 10 * (number + 1) := by
        omega
      calc
        _ < (10 * number + digit + 1) * powerOfTen others.length :=
          inductionHypothesis areDigits.2 _
        _ ≤ 10 * (number + 1) * powerOfTen others.length :=
          Nat.mul_le_mul_right _ isBelow
        _ = (number + 1) * powerOfTen (digit :: others).length := by
          simp only [powerOfTen, List.length_cons, Nat.pow_eq, Nat.pow_succ]
          ac_rfl

theorem numberOfDigits_lt
    {digits : List Nat}
    (areDigits : ∀ digit ∈ digits, digit < 10) :
    numberOfDigits digits < powerOfTen digits.length := by
  simpa [numberOfDigits] using foldl_digits_lt areDigits 0

/-- An integer that is read is below the power of ten of the most digits in size. -/
theorem natAbs_lt_of_readInteger
    {text : Text}
    {number : Int}
    (read : readInteger text = .ok number) :
    number.natAbs < powerOfTen digitLimit := by
  unfold readInteger at read
  split at read
  rename_i negative unsigned _
  split at read
  next => cases read
  next digits areDigits =>
    split at read
    next => cases read
    next withinLimit =>
      split at read
      next =>
        have isBelow := numberOfDigits_lt (separatedDigits?_lt_ten areDigits)
        have atMost : powerOfTen digits.length ≤ powerOfTen digitLimit :=
          powerOfTen_le_powerOfTen (Nat.le_of_not_lt withinLimit)
        cases read
        split <;> omega
      next => cases read

end Text

end TestAudit
