import TestAudit.Text.Blank
import TestAudit.Text.Digit

namespace TestAudit.Text

/-!
# Reading integers

An integer is written with an optional sign and decimal digits of any script,
between which single low lines may stand, and may have blanks around it. Numerals
of more than `digitLimit` digits are refused, in reading and in writing.
-/

/-- The most digits that an integer numeral may have. -/
def digitLimit : Nat :=
  4300

/-- Why a text is no integer. -/
inductive NumeralFault where
  | malformed
  | tooLong (digits : Nat)
  deriving Repr, DecidableEq

/-- The message for an integer numeral of too many digits. -/
def NumeralFault.tooLongMessage (digits : Nat) : Text :=
  "Exceeds the limit (" ++ ofNat digitLimit ++
    " digits) for integer string conversion: value has " ++ ofNat digits ++
    " digits; use sys.set_int_max_str_digits() to increase the limit"

/-- The blanks that may surround a numeral: the information separators are not among them. -/
def isNumeralBlank (c : Char) : Bool :=
  isBlank c && !(0x1C ≤ c.toNat && c.toNat ≤ 0x1F)

/-- Whether a character may stand in a numeral behind its sign. -/
def isNumeralChar (c : Char) : Bool :=
  isDigit c || c == '_'

/-- The values of decimal digits between which single low lines may stand. -/
def separatedDigits? : Text → Option (List Nat)
  | [] => none
  | [c] => (digitValue? c).map fun digit => [digit]
  | c :: '_' :: rest =>
      (digitValue? c).bind fun digit => (separatedDigits? rest).map (digit :: ·)
  | c :: rest =>
      (digitValue? c).bind fun digit => (separatedDigits? rest).map (digit :: ·)

/-- The number with the given decimal digits. -/
def numberOfDigits (digits : List Nat) : Nat :=
  digits.foldl (fun number digit => 10 * number + digit) 0

/-- The sign of a numeral, true for a hyphen, and the text after it. -/
def signOf : Text → Bool × Text
  | '-' :: rest => (true, rest)
  | '+' :: rest => (false, rest)
  | text => (false, text)

/--
The integer that a text denotes. A numeral goes as far as digits and low lines do,
and its length is judged before what follows it, where only blanks may stand.
-/
def readInteger (text : Text) : Except NumeralFault Int :=
  let (negative, unsigned) := signOf (text.dropWhile isNumeralBlank)
  match separatedDigits? (unsigned.takeWhile isNumeralChar) with
  | none => .error .malformed
  | some digits =>
      if digitLimit < digits.length then
        .error (.tooLong digits.length)
      else if (unsigned.dropWhile isNumeralChar).all isNumeralBlank then
        let number : Int := numberOfDigits digits
        .ok (if negative then -number else number)
      else
        .error .malformed

end TestAudit.Text
