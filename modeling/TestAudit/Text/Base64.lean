import TestAudit.Text.Basic

namespace TestAudit.Text

/-!
# Base64

Three bytes are written as four letters of a sixty-four letter alphabet, and a
last group of one or two bytes is filled up with equals signs.
-/

namespace Base64

/-- The sixty-four letters by value. -/
def alphabet : Text :=
  "ABCDEFGHIJKLMNOPQRSTUVWXYZabcdefghijklmnopqrstuvwxyz0123456789+/"

/-- The letter for the six lowest bits of a number. -/
def letter (value : Nat) : Char :=
  alphabet.getD (value % 64) 'A'

/-- The letters that write a byte sequence. -/
def encode : List UInt8 → Text
  | [] => []
  | [a] =>
      let bits := a.toNat * 16
      [letter (bits / 64), letter bits, '=', '=']
  | [a, b] =>
      let bits := (a.toNat * 256 + b.toNat) * 4
      [letter (bits / 4096), letter (bits / 64), letter bits, '=']
  | a :: b :: c :: rest =>
      let bits := (a.toNat * 256 + b.toNat) * 256 + c.toNat
      letter (bits / 262144) :: letter (bits / 4096) :: letter (bits / 64) :: letter bits ::
        encode rest

/-- The value of a letter. -/
def valueOf? (c : Char) : Option Nat :=
  alphabet.idxOf? c

/-- The bytes that letters write, if they come in complete groups. -/
def decode? : Text → Option (List UInt8)
  | [] => some []
  | [p, q, '=', '='] => do
      let bits := (← valueOf? p) * 64 + (← valueOf? q)
      return [(bits / 16).toUInt8]
  | [p, q, r, '='] => do
      let bits := ((← valueOf? p) * 64 + (← valueOf? q)) * 64 + (← valueOf? r)
      return [(bits / 1024).toUInt8, (bits / 4).toUInt8]
  | p :: q :: r :: s :: rest => do
      let upper := (← valueOf? p) * 64 + (← valueOf? q)
      let lower := (← valueOf? r) * 64 + (← valueOf? s)
      let bits := upper * 4096 + lower
      let bytes ← decode? rest
      return (bits / 65536).toUInt8 :: (bits / 256).toUInt8 :: bits.toUInt8 :: bytes
  | _ => none

end Base64

end TestAudit.Text
