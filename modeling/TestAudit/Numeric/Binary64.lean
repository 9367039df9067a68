import TestAudit.Text.Basic

namespace TestAudit

/-!
# Binary floating-point values

A binary64 value is kept as an exact integer times a power of two, so rounding,
truncating and printing are computed with whole numbers. Quotients are rounded
to the nearest value, and a tie goes to the even significand.
-/

/-- A power of two. -/
def powerOfTwo (exponent : Nat) : Nat :=
  Nat.pow 2 exponent

/-- A power of ten. -/
def powerOfTen (exponent : Nat) : Nat :=
  Nat.pow 10 exponent

/-- A binary64 value; a finite one is ± significand · 2 ^ exponent. -/
inductive Binary64 where
  | finite (negative : Bool) (significand : Nat) (exponent : Int)
  | infinite (negative : Bool)
  | undefined
  deriving Repr, DecidableEq

/-- The quotient of two natural numbers rounded to the nearest integer, ties to even. -/
def roundedQuotient (numerator denominator : Nat) : Nat :=
  let quotient := numerator / denominator
  let twice := 2 * (numerator % denominator)
  if twice < denominator then quotient
  else if denominator < twice then quotient + 1
  else if quotient % 2 = 0 then quotient
  else quotient + 1

namespace Binary64

/-- The number of bits of a significand. -/
def precision : Nat :=
  53

/-- The exponent of the finest grid of values. -/
def leastExponent : Int :=
  -1074

/-- The exponent of the coarsest grid of finite values. -/
def greatestExponent : Int :=
  971

/-- The integer and the unit that a quotient becomes on the grid of a power of two. -/
def onGrid (numerator denominator : Nat) (exponent : Int) : Nat × Nat :=
  (numerator * powerOfTwo (-exponent).toNat, denominator * powerOfTwo exponent.toNat)

/-- The exponent of the grid on which a positive quotient has the full precision. -/
def gridExponent (numerator denominator : Nat) : Int :=
  let estimate : Int := (numerator.log2 : Int) - denominator.log2 - precision
  let exponent := max estimate leastExponent
  let (scaled, size) := onGrid numerator denominator exponent
  if scaled / size < powerOfTwo precision then exponent else exponent + 1

/--
The significand and exponent of the value nearest to a quotient, or nothing when
the quotient rounds to something above the greatest finite value.
-/
def nearest? (numerator denominator : Nat) : Option (Nat × Int) :=
  if numerator = 0 then
    some (0, leastExponent)
  else
    let exponent := gridExponent numerator denominator
    let (scaled, size) := onGrid numerator denominator exponent
    let rounded := roundedQuotient scaled size
    let (significand, exponent) :=
      if rounded = powerOfTwo precision then
        (powerOfTwo (precision - 1), exponent + 1)
      else
        (rounded, exponent)
    if greatestExponent < exponent then none else some (significand, exponent)

/-- The powers of ten beyond which every decimal is infinite or zero. -/
def decimalReach : Int :=
  400

/-- The value nearest to `digits · 10 ^ exponent`. -/
def ofDecimal (negative : Bool) (digits : Nat) (exponent : Int) : Binary64 :=
  let magnitude : Int := (Nat.toDigits 10 digits).length + exponent
  if digits = 0 || magnitude < -decimalReach then
    .finite negative 0 leastExponent
  else if decimalReach < magnitude then
    .infinite negative
  else
    match nearest? (digits * powerOfTen exponent.toNat) (powerOfTen (-exponent).toNat) with
    | some (significand, exponent) => .finite negative significand exponent
    | none => .infinite negative

/-- The integer part of a finite value: digits after the point are dropped. -/
def truncate? : Binary64 → Option Int
  | .finite negative significand exponent =>
      let whole : Int :=
        (significand * powerOfTwo exponent.toNat / powerOfTwo (-exponent).toNat : Nat)
      some (if negative then -whole else whole)
  | _ => none

/-- A finite magnitude with one digit after the point, ties to even. -/
def oneDecimal (significand : Nat) (exponent : Int) : Text :=
  let tenths :=
    roundedQuotient (10 * significand * powerOfTwo exponent.toNat) (powerOfTwo (-exponent).toNat)
  Text.ofNat (tenths / 10) ++ '.' :: Text.ofNat (tenths % 10)

end Binary64

end TestAudit
