import TestAudit.Json.Value
import TestAudit.Text.Numeral

namespace TestAudit.Json

/-!
# Reading JSON

A recursive-descent reader over the characters of a text. Besides the grammar of
JSON it reads the three words for numbers that are not finite. A fault carries
the text that was left where it was noticed, which gives its place: line and
column are counted from one, and only a line feed ends a line. An escape that is
half a surrogate pair on its own is read as the replacement character, and there
is no limit on how deeply values are nested.
-/

/-- What is wrong with a text that is no JSON document. -/
inductive SyntaxFault where
  | expectingValue
  | expectingName
  | expectingColon
  | expectingComma
  | unterminatedString
  | controlCharacter
  | unknownEscape
  | badUnicodeEscape
  | extraData
  | byteOrderMark
  deriving Repr, DecidableEq

namespace SyntaxFault

/-- The words for a fault. -/
def message : SyntaxFault → Text
  | .expectingValue => "Expecting value"
  | .expectingName => "Expecting property name enclosed in double quotes"
  | .expectingColon => "Expecting ':' delimiter"
  | .expectingComma => "Expecting ',' delimiter"
  | .unterminatedString => "Unterminated string starting at"
  | .controlCharacter => "Invalid control character at"
  | .unknownEscape => "Invalid \\escape"
  | .badUnicodeEscape => "Invalid \\uXXXX escape"
  | .extraData => "Extra data"
  | .byteOrderMark => "Unexpected UTF-8 BOM (decode using utf-8-sig)"

end SyntaxFault

/-- Why reading stopped: a fault in front of the text that was left, or too long an integer. -/
inductive Stop where
  | syntaxFault (fault : SyntaxFault) (left : Text)
  | integerTooLong (digits : Nat)
  deriving Repr, DecidableEq

/-- The text after the blanks that may stand between tokens. -/
def skipBlanks (text : Text) : Text :=
  text.dropWhile fun c => c == ' ' || c == '\t' || c == '\n' || c == '\r'

/-! ## Strings -/

/-- The value of a hexadecimal digit. -/
def hexValue? (c : Char) : Option Nat :=
  if c.isDigit then some (c.toNat - '0'.toNat)
  else if 'a' ≤ c ∧ c ≤ 'f' then some (c.toNat - 'a'.toNat + 10)
  else if 'A' ≤ c ∧ c ≤ 'F' then some (c.toNat - 'A'.toNat + 10)
  else none

/-- The number written by four hexadecimal digits in front of a text that goes on after them. -/
def fourHex? : Text → Option (Nat × Text)
  | a :: b :: c :: d :: next :: rest => do
      let number := (((← hexValue? a) * 16 + (← hexValue? b)) * 16 + (← hexValue? c)) * 16 +
        (← hexValue? d)
      return (number, next :: rest)
  | _ => none

/-- Whether a code unit is the first half of a pair. -/
def isHighSurrogate (unit : Nat) : Bool :=
  0xD800 ≤ unit && unit ≤ 0xDBFF

/-- Whether a code unit is the second half of a pair. -/
def isLowSurrogate (unit : Nat) : Bool :=
  0xDC00 ≤ unit && unit ≤ 0xDFFF

/-- The character of one code unit; half a pair on its own is replaced. -/
def charOfUnit (unit : Nat) : Char :=
  if isHighSurrogate unit || isLowSurrogate unit then '\uFFFD' else Char.ofNat unit

/-- The character of two code units that form a pair. -/
def charOfPair (high low : Nat) : Char :=
  Char.ofNat (0x10000 + (high - 0xD800) * 0x400 + (low - 0xDC00))

/--
The character of an escape by number, and the length of the escape from the letter
u on. The text follows that letter; a first half joins with the second half that
an escape right after it may hold.
-/
def unicodeEscape (text : Text) : Except Stop (Char × Nat) :=
  match fourHex? text with
  | none => .error (.syntaxFault .badUnicodeEscape ('u' :: text))
  | some (unit, rest) =>
      match isHighSurrogate unit, rest with
      | true, '\\' :: 'u' :: digits =>
          if (digits.drop 4).isEmpty then
            .ok (charOfUnit unit, 5)
          else
            match fourHex? digits with
            | none => .error (.syntaxFault .badUnicodeEscape ('u' :: digits))
            | some (second, _) =>
                if isLowSurrogate second then
                  .ok (charOfPair unit second, 11)
                else
                  .ok (charOfUnit unit, 5)
      | _, _ => .ok (charOfUnit unit, 5)

/-- The character that a letter after a backslash stands for. -/
def escapedChar? : Char → Option Char
  | '\x22' => some '\x22'
  | '\\' => some '\\'
  | '/' => some '/'
  | 'b' => some '\x08'
  | 'f' => some '\x0C'
  | 'n' => some '\n'
  | 'r' => some '\r'
  | 't' => some '\t'
  | _ => none

/--
The character that an escape stands for, and the length of the escape after its
backslash. `opening` is where an unterminated string is reported.
-/
def escape (opening : Text) : Text → Except Stop (Char × Nat)
  | [] => .error (.syntaxFault .unterminatedString opening)
  | 'u' :: text => unicodeEscape text
  | letter :: rest =>
      match escapedChar? letter with
      | none => .error (.syntaxFault .unknownEscape ('\\' :: letter :: rest))
      | some c => .ok (c, 1)

/--
The characters of a string up to its closing quote, and the text after it, once
`skip` characters, the rest of an escape, are passed over. `opening` is the text
from the opening quote on, where an unterminated string is reported.
-/
def stringBody (opening : Text) : (skip : Nat) → Text → Except Stop (Text × Text)
  | _, [] => .error (.syntaxFault .unterminatedString opening)
  | skip + 1, _ :: rest => stringBody opening skip rest
  | 0, c :: rest =>
      if c = '\x22' then
        .ok ([], rest)
      else if c = '\\' then do
        let (escaped, length) ← escape opening rest
        let (body, after) ← stringBody opening length rest
        return (escaped :: body, after)
      else if c.toNat ≤ 0x1F then
        .error (.syntaxFault .controlCharacter (c :: rest))
      else do
        let (body, after) ← stringBody opening 0 rest
        return (c :: body, after)

/-- The string whose opening quote stands before the given text. -/
def stringAfterQuote (rest : Text) : Except Stop (Text × Text) :=
  stringBody ('\x22' :: rest) 0 rest

/-! ## Numbers -/

/-- The ASCII digits at the front of a text, and the text after them. -/
def spanDigits (text : Text) : Text × Text :=
  (text.takeWhile Char.isDigit, text.dropWhile Char.isDigit)

/-- The number that ASCII digits denote. -/
def numberOf (digits : Text) : Nat :=
  Text.numberOfDigits (digits.map fun c => c.toNat - '0'.toNat)

/-- The digits before the point: a zero alone, or digits that begin with another one. -/
def wholeDigits? : Text → Option (Text × Text)
  | '0' :: rest => some (['0'], rest)
  | c :: rest => if c.isDigit then some (spanDigits (c :: rest)) else none
  | [] => none

/-- The digits after a point, if at least one follows it. -/
def fractionDigits? : Text → Option (Text × Text)
  | '.' :: rest =>
      match spanDigits rest with
      | ([], _) => none
      | digits => some digits
  | _ => none

/-- The exponent after the letter e, if it has at least one digit. -/
def exponent? : Text → Option (Int × Text)
  | c :: rest =>
      if c = 'e' || c = 'E' then
        let (negative, numeral) := Text.signOf rest
        match spanDigits numeral with
        | ([], _) => none
        | (digits, after) =>
            let magnitude : Int := numberOf digits
            some (if negative then -magnitude else magnitude, after)
      else
        none
  | [] => none

/--
A number in front of a text. A point without digits and an exponent without
digits do not belong to it.
-/
def number? (text : Text) : Option (Except Stop (Value × Text)) :=
  let (negative, unsigned) :=
    match text with
    | '-' :: rest => (true, rest)
    | _ => (false, text)
  (wholeDigits? unsigned).map fun (whole, afterWhole) =>
    let fraction := fractionDigits? afterWhole
    let (decimals, afterFraction) := fraction.getD ([], afterWhole)
    let power := exponent? afterFraction
    match fraction, power with
    | none, none =>
        if Text.digitLimit < whole.length then
          .error (.integerTooLong whole.length)
        else
          let magnitude : Int := numberOf whole
          .ok (.integer (if negative then -magnitude else magnitude), afterWhole)
    | _, _ =>
        let (exponent, after) := power.getD (0, afterFraction)
        .ok (
          .real (.ofDecimal negative (numberOf (whole ++ decimals)) (exponent - decimals.length)),
          after)

/-! ## Values -/

/-- The words that stand for a value of their own. -/
def words : List (Text × Value) :=
  [ ("null", .null),
    ("true", .boolean true),
    ("false", .boolean false),
    ("NaN", .real .undefined),
    ("Infinity", .real (.infinite false)),
    ("-Infinity", .real (.infinite true)) ]

/-- A word or a number in front of a text. -/
def scalar (text : Text) : Except Stop (Value × Text) :=
  match words.findSome? fun (word, value) => (text.afterStart? word).map (value, ·) with
  | some reading => .ok reading
  | none => (number? text).getD (.error (.syntaxFault .expectingValue text))

mutual

/-- A value in front of a text. -/
def value : (fuel : Nat) → Text → Except Stop (Value × Text)
  | 0, text => .error (.syntaxFault .expectingValue text)
  | fuel + 1, text =>
      match text with
      | '\x22' :: rest => do
          let (body, rest) ← stringAfterQuote rest
          return (.string body, rest)
      | '[' :: rest =>
          match skipBlanks rest with
          | ']' :: rest => .ok (.array [], rest)
          | rest => do
              let (read, rest) ← items fuel rest
              return (.array read, rest)
      | '\x7b' :: rest =>
          match skipBlanks rest with
          | '\x7d' :: rest => .ok (.object [], rest)
          | rest => do
              let (read, rest) ← members fuel rest
              return (.object (mergeMembers read), rest)
      | _ => scalar text

/-- The items of an array from one of them on, and the text after the closing bracket. -/
def items : (fuel : Nat) → Text → Except Stop (List Value × Text)
  | 0, text => .error (.syntaxFault .expectingValue text)
  | fuel + 1, text => do
      let (first, rest) ← value fuel text
      match skipBlanks rest with
      | ']' :: rest => return ([first], rest)
      | ',' :: rest =>
          let (others, rest) ← items fuel (skipBlanks rest)
          return (first :: others, rest)
      | rest => throw (.syntaxFault .expectingComma rest)

/-- The members of an object from one of them on, and the text after the closing brace. -/
def members : (fuel : Nat) → Text → Except Stop (List (Text × Value) × Text)
  | 0, text => .error (.syntaxFault .expectingValue text)
  | fuel + 1, text =>
      match text with
      | '\x22' :: rest => do
          let (name, rest) ← stringAfterQuote rest
          match skipBlanks rest with
          | ':' :: rest =>
              let (first, rest) ← value fuel (skipBlanks rest)
              match skipBlanks rest with
              | '\x7d' :: rest => return ([(name, first)], rest)
              | ',' :: rest =>
                  let (others, rest) ← members fuel (skipBlanks rest)
                  return ((name, first) :: others, rest)
              | rest => throw (.syntaxFault .expectingComma rest)
          | rest => throw (.syntaxFault .expectingColon rest)
      | _ => .error (.syntaxFault .expectingName text)

end

/-- A whole document: one value with nothing but blanks around it. -/
def document (text : Text) : Except Stop Value :=
  if text.head? = some '\uFEFF' then
    .error (.syntaxFault .byteOrderMark text)
  else do
    let (read, rest) ← value (2 * text.length + 1) (skipBlanks text)
    match skipBlanks rest with
    | [] => return read
    | rest => throw (.syntaxFault .extraData rest)

/-! ## Places of faults -/

/-- A place in a text: the line and the column, both from one. -/
structure Place where
  line : Nat
  column : Nat
  deriving Repr, DecidableEq

/-- The place in front of a rest of a text. -/
def placeOf (text left : Text) : Place :=
  let before := text.take (text.length - left.length)
  {
    line := before.count '\n' + 1
    column := (before.reverse.takeWhile (· != '\n')).length + 1
  }

/-- Why a text is no JSON document. -/
inductive Fault where
  | malformed (fault : SyntaxFault) (place : Place)
  | integerTooLong (digits : Nat)
  deriving Repr, DecidableEq

/-- The value that a text holds, or why it holds none. -/
def parse (text : Text) : Except Fault Value :=
  (document text).mapError fun
    | .syntaxFault fault left => .malformed fault (placeOf text left)
    | .integerTooLong digits => .integerTooLong digits

end TestAudit.Json
