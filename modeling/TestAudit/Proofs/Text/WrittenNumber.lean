import TestAudit.Text.Quoted

namespace TestAudit.Text

/-!
# Numbers that are written

A decimal numeral goes as far as its digits do, so what stands behind it cannot be taken for
a part of it, and different integers have different numerals. A hexadecimal numeral of four
digits has one digit for each power of sixteen.
-/

/-! ## Decimal numerals -/

/-- A text that does not go on with a decimal digit. -/
def NoDigit (text : Text) : Prop :=
  ∀ c rest, text = c :: rest → c.isDigit = false

theorem isDigit_of_mem_ofNat
    {number : Nat}
    {c : Char}
    (member : c ∈ ofNat number) :
    c.isDigit = true :=
  Nat.isDigit_of_mem_toDigits (by decide) (by decide) member

/-- Two runs of digits, each with no digit behind it, are one run. -/
theorem append_noDigit_inj
    {digits figures rest behind : Text}
    (areDigits : ∀ c ∈ digits, c.isDigit = true)
    (areFigures : ∀ c ∈ figures, c.isDigit = true)
    (noDigit : NoDigit rest)
    (noFigure : NoDigit behind)
    (same : digits ++ rest = figures ++ behind) :
    digits = figures ∧ rest = behind := by
  induction digits generalizing figures with
  | nil =>
      cases figures with
      | nil => exact ⟨rfl, same⟩
      | cons figure figures =>
          have isDigit := areFigures figure List.mem_cons_self
          rw [noDigit figure _ same] at isDigit
          cases isDigit
  | cons digit digits inductionHypothesis =>
      obtain ⟨isDigit, areDigits⟩ := List.forall_mem_cons.mp areDigits
      cases figures with
      | nil =>
          rw [noFigure digit _ same.symm] at isDigit
          cases isDigit
      | cons figure figures =>
          obtain ⟨rfl, sameRest⟩ := List.cons.inj same
          obtain ⟨rfl, rfl⟩ := inductionHypothesis areDigits
            (List.forall_mem_cons.mp areFigures).2 sameRest
          exact ⟨rfl, rfl⟩

theorem ofNat_append_inj
    {number other : Nat}
    {rest behind : Text}
    (noDigit : NoDigit rest)
    (noFigure : NoDigit behind)
    (same : ofNat number ++ rest = ofNat other ++ behind) :
    number = other ∧ rest = behind := by
  obtain ⟨sameDigits, sameRest⟩ := append_noDigit_inj
    (fun _ => isDigit_of_mem_ofNat) (fun _ => isDigit_of_mem_ofNat) noDigit noFigure same
  have denotes (number : Nat) : Nat.ofDigitChars 10 (ofNat number) 0 = number :=
    Nat.ofDigitChars_toDigits (by decide) (by decide)
  refine ⟨?_, sameRest⟩
  rw [← denotes number, sameDigits, denotes]

/-- A numeral begins with a digit, or with a hyphen before one. -/
theorem exists_cons_ofInt
    (number : Int) :
    ∃ c rest, ofInt number = c :: rest ∧ (c = '-' ∨ c.isDigit = true) := by
  cases number with
  | ofNat number =>
      cases shape : ofNat number with
      | nil => exact (Nat.toDigits_ne_nil shape).elim
      | cons c rest =>
          exact ⟨c, rest, shape, Or.inr (@isDigit_of_mem_ofNat number c (shape ▸ List.mem_cons_self))⟩
  | negSucc number => exact ⟨'-', _, rfl, Or.inl rfl⟩

theorem ofNat_append_ne_hyphen
    (number : Nat)
    (rest behind : Text) :
    ofNat number ++ rest ≠ '-' :: behind := by
  intro same
  cases shape : ofNat number with
  | nil => exact Nat.toDigits_ne_nil shape
  | cons c others =>
      rw [shape] at same
      have isDigit := @isDigit_of_mem_ofNat number c (shape ▸ List.mem_cons_self)
      rw [(List.cons.inj same).1] at isDigit
      cases isDigit

theorem ofInt_append_inj
    {number other : Int}
    {rest behind : Text}
    (noDigit : NoDigit rest)
    (noFigure : NoDigit behind)
    (same : ofInt number ++ rest = ofInt other ++ behind) :
    number = other ∧ rest = behind := by
  cases number with
  | ofNat number =>
      cases other with
      | ofNat other =>
          obtain ⟨rfl, sameRest⟩ := ofNat_append_inj noDigit noFigure same
          exact ⟨rfl, sameRest⟩
      | negSucc other => exact (ofNat_append_ne_hyphen number rest _ same).elim
  | negSucc number =>
      cases other with
      | ofNat other => exact (ofNat_append_ne_hyphen other behind _ same.symm).elim
      | negSucc other =>
          obtain ⟨sameNumber, sameRest⟩ :=
            ofNat_append_inj noDigit noFigure (List.cons.inj same).2
          cases sameNumber
          exact ⟨rfl, sameRest⟩

/-! ## Hexadecimal numerals -/

/-- The last digit of a hexadecimal numeral stands behind those of the sixteenth part. -/
theorem hexadecimal_succ
    {width : Nat}
    (positive : 0 < width)
    (number : Nat) :
    hexadecimal (width + 1) number =
      hexadecimal width (number / 16) ++ [Nat.digitChar (number % 16)] := by
  unfold hexadecimal padZeros
  by_cases small : number < 16
  · have noSixteenth : number / 16 = 0 := Nat.div_eq_of_lt small
    obtain ⟨zeros, rfl⟩ := Nat.exists_eq_succ_of_ne_zero (Nat.ne_of_gt positive)
    rw [Nat.toDigits_of_lt_base small, noSixteenth, Nat.toDigits_zero, Nat.mod_eq_of_lt small]
    simp [List.replicate_succ']
  · rw [Nat.toDigits_of_base_le (by decide) (Nat.not_lt.mp small), List.length_append,
      List.length_singleton, Nat.add_sub_add_right, List.append_assoc]

theorem hexadecimal_four
    {number : Nat}
    (isUnit : number < 0x10000) :
    hexadecimal 4 number =
      [ Nat.digitChar (number / 16 / 16 / 16),
        Nat.digitChar (number / 16 / 16 % 16),
        Nat.digitChar (number / 16 % 16),
        Nat.digitChar (number % 16) ] := by
  have oneDigit : number / 16 / 16 / 16 < 16 := by omega
  rw [hexadecimal_succ (by decide), hexadecimal_succ (by decide), hexadecimal_succ (by decide),
    hexadecimal, Nat.toDigits_of_lt_base oneDigit]
  rfl

end TestAudit.Text
