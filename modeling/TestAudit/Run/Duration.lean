import TestAudit.Numeric.Binary64
import TestAudit.Text.Numeral

namespace TestAudit.Duration

/-!
# Durations

A duration is a number of milliseconds. Below a second it is shown in
milliseconds; from there on in seconds with one digit after the point, taken from
the binary64 value nearest to the number of seconds.
-/

/-- Why a duration, or another number, cannot be shown. -/
inductive Fault where
  /-- The number of seconds is above every finite binary64 value. -/
  | tooLong
  /-- The number has more digits than a numeral may have. -/
  | tooManyDigits
  deriving Repr, DecidableEq

/-- The message for a duration that cannot be shown. -/
def Fault.message : Fault → Text
  | .tooLong => "integer division result too large for a float"
  | .tooManyDigits =>
      "Exceeds the limit (" ++ Text.ofNat Text.digitLimit ++
        " digits) for integer string conversion; use sys.set_int_max_str_digits() " ++
        "to increase the limit"

/-- Whether an integer has more digits than a numeral may have. -/
def exceedsDigitLimit (number : Int) : Bool :=
  powerOfTen Text.digitLimit ≤ number.natAbs

/-- A number of milliseconds as people read it. -/
def show? (milliseconds : Int) : Except Fault Text :=
  if milliseconds < 1000 then
    if exceedsDigitLimit milliseconds then
      .error .tooManyDigits
    else
      .ok (Text.ofInt milliseconds ++ "ms")
  else
    match Binary64.nearest? milliseconds.toNat 1000 with
    | some (significand, exponent) =>
        .ok (Binary64.oneDecimal significand exponent ++ "s")
    | none => .error .tooLong

end TestAudit.Duration
