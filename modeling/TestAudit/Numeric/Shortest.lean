import TestAudit.Numeric.Binary64

namespace TestAudit.Binary64

/-!
# Shortest decimal text

A binary64 value is written with the fewest digits that read back to it; of two
such decimals the nearer one is taken, and an exact tie goes to the even digit.
The search runs over the decimal grids from coarse to fine and looks at the two
neighbours of the value on each.
-/

/-- A decimal `digits · 10 ^ exponent`. -/
structure Decimal where
  digits : Nat
  exponent : Int
  deriving Repr, DecidableEq

/-- Compares `a · 10 ^ i` with `b · 2 ^ j` exactly. -/
def compareScaled (a : Nat) (i : Int) (b : Nat) (j : Int) : Ordering :=
  compare (a * powerOfTen i.toNat * powerOfTwo (-j).toNat)
    (b * powerOfTwo j.toNat * powerOfTen (-i).toNat)

/--
Whether a decimal lies among the reals that round to a value: between the
midpoints to its neighbours, the midpoints included for an even significand.
-/
def readsBack (significand : Nat) (exponent : Int) (decimal : Decimal) : Bool :=
  let narrow := significand = powerOfTwo (precision - 1) && leastExponent < exponent
  let low := if narrow then 4 * significand - 1 else 4 * significand - 2
  let closed := significand % 2 = 0
  let above := compareScaled decimal.digits decimal.exponent low (exponent - 2)
  let below := compareScaled decimal.digits decimal.exponent (4 * significand + 2) (exponent - 2)
  (above == .gt || (closed && above == .eq)) && (below == .lt || (closed && below == .eq))

/-- The least exponent of ten whose power exceeds a positive value. -/
def decimalScale (significand : Nat) (exponent : Int) : Int :=
  let estimate : Int := ((significand.log2 + exponent) * 30103) / 100000 - 1
  let exceeds (scale : Int) : Bool := compareScaled 1 scale significand exponent == .gt
  ((List.range 5).map fun (step : Nat) => estimate + step).find? exceeds |>.getD (estimate + 5)

/-- The best of the two neighbours of a value on a decimal grid that read back to it. -/
def candidateOn? (significand : Nat) (exponent grid : Int) : Option Decimal :=
  let numerator := significand * powerOfTwo exponent.toNat * powerOfTen (-grid).toNat
  let denominator := powerOfTwo (-exponent).toNat * powerOfTen grid.toNat
  let lower := numerator / denominator
  let nearer := roundedQuotient numerator denominator
  let farther := if nearer = lower then lower + 1 else lower
  [nearer, farther].map (Decimal.mk · grid) |>.find? (readsBack significand exponent)

/-- The decimal with the fewest digits that reads back to a positive value. -/
def shortest (significand : Nat) (exponent : Int) : Decimal :=
  let scale := decimalScale significand exponent
  ((List.range 17).findSome? fun (digits : Nat) =>
    candidateOn? significand exponent (scale - digits - 1)).getD
      ⟨significand * powerOfTwo exponent.toNat, 0⟩

/-- Whether a decimal of this leading exponent is written without a power of ten. -/
def isPositional (leading : Int) : Bool :=
  -4 ≤ leading && leading < 16

/-- An exponent with its sign and at least two digits. -/
def exponentText (leading : Int) : Text :=
  let magnitude := Text.ofNat leading.natAbs
  (if leading < 0 then '-' else '+') ::
    List.replicate (2 - magnitude.length) '0' ++ magnitude

/--
The text of a positive decimal without trailing zeros: positional from 0.0001 to
below ten to the sixteenth, otherwise with one digit before the point.
-/
def layout (digits : Text) (leading : Int) : Text :=
  if isPositional leading then
    if leading < 0 then
      "0." ++ List.replicate (-leading - 1).toNat '0' ++ digits
    else
      let whole := leading.toNat + 1
      digits.take whole ++ List.replicate (whole - digits.length) '0' ++ '.' ::
        (if digits.length ≤ whole then "0" else digits.drop whole)
  else
    digits.take 1 ++ (if digits.length ≤ 1 then [] else '.' :: digits.drop 1) ++ 'e' ::
      exponentText leading

/-- The shortest text of a finite magnitude. -/
def magnitudeText (significand : Nat) (exponent : Int) : Text :=
  if significand = 0 then
    "0.0"
  else
    let decimal := shortest significand exponent
    let numeral := Text.ofNat decimal.digits
    layout (numeral.dropEndWhile (· == '0')) (decimal.exponent + numeral.length - 1)

/-- The texts of the values that are not finite. -/
structure SpecialNames where
  infinity : Text
  undefined : Text
  deriving Repr, DecidableEq

/-- The shortest text that reads back to a value. -/
def toText (names : SpecialNames) : Binary64 → Text
  | .finite negative significand exponent =>
      (if negative then ['-'] else []) ++ magnitudeText significand exponent
  | .infinite negative => (if negative then ['-'] else []) ++ names.infinity
  | .undefined => names.undefined

end TestAudit.Binary64
