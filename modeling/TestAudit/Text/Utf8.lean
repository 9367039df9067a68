import TestAudit.Text.Quoted

namespace TestAudit.Text

/-!
# UTF-8

Bytes are cut from left to right into encoded characters and faults. A fault
covers the longest beginning of an encoded character that the bytes still agree
with, at least one byte. Strict decoding reports the first fault with its place;
lenient decoding writes the replacement character for each fault.
-/

namespace Utf8

/-- What is wrong at a place where no character can be decoded. -/
inductive Reason where
  | invalidStart
  | invalidContinuation
  | unexpectedEnd
  deriving Repr, DecidableEq

/-- A decoded character or a fault, with the number of bytes after its first one. -/
inductive Piece where
  | char (c : Char) (more : Nat)
  | fault (reason : Reason) (more : Nat)
  deriving Repr, DecidableEq

namespace Piece

/-- The number of bytes that a piece covers beyond its first. -/
def more : Piece → Nat
  | .char _ more => more
  | .fault _ more => more

end Piece

/-- Whether a byte continues a character that an earlier byte began. -/
def isContinuation (byte : UInt8) : Bool :=
  0x80 ≤ byte && byte ≤ 0xBF

/-- The six bits that a continuation byte adds. -/
def payload (byte : UInt8) : Nat :=
  byte.toNat % 0x40

/-- Whether the second byte may follow: no overlong form, no surrogate, nothing too large. -/
def agrees (first second : UInt8) : Bool :=
  isContinuation second &&
    !(first == 0xE0 && second < 0xA0) &&
    !(first == 0xED && 0xA0 ≤ second) &&
    !(first == 0xF0 && second < 0x90) &&
    !(first == 0xF4 && 0x90 ≤ second)

/-- The number of continuation bytes that a first byte announces. -/
def announced? (first : UInt8) : Option Nat :=
  if first < 0x80 then some 0
  else if first < 0xC2 then none
  else if first < 0xE0 then some 1
  else if first < 0xF0 then some 2
  else if first < 0xF5 then some 3
  else none

/-- The bits that a first byte contributes when the given number of bytes follow. -/
def leading (first : UInt8) : Nat → Nat
  | 0 => first.toNat
  | 1 => first.toNat % 0x20
  | 2 => first.toNat % 0x10
  | _ => first.toNat % 0x08

/--
The piece after the second byte agreed: `seen` continuation bytes gave the code
so far and `missing` are still to come.
-/
def continuePiece (code seen : Nat) : (missing : Nat) → List UInt8 → Piece
  | 0, _ => .char (Char.ofNat code) seen
  | _ + 1, [] => .fault .unexpectedEnd seen
  | missing + 1, byte :: rest =>
      if isContinuation byte then
        continuePiece (0x40 * code + payload byte) (seen + 1) missing rest
      else
        .fault .invalidContinuation seen

/-- The piece that begins with the given byte. -/
def pieceAt (first : UInt8) (rest : List UInt8) : Piece :=
  match announced? first with
  | none => .fault .invalidStart 0
  | some 0 => .char (Char.ofNat first.toNat) 0
  | some (missing + 1) =>
      match rest with
      | [] => .fault .unexpectedEnd 0
      | second :: others =>
          if agrees first second then
            continuePiece (0x40 * leading first (missing + 1) + payload second) 1 missing others
          else
            .fault .invalidContinuation 0

/-- The pieces of a byte sequence once the rest of a piece already taken is passed over. -/
def piecesFrom : Nat → List UInt8 → List Piece
  | _, [] => []
  | skip + 1, _ :: rest => piecesFrom skip rest
  | 0, first :: rest =>
      pieceAt first rest :: piecesFrom (pieceAt first rest).more rest

/-- The first fault of a byte sequence: where it begins, how many bytes it covers, and why. -/
structure Fault where
  offset : Nat
  firstByte : UInt8
  length : Nat
  reason : Reason
  deriving Repr, DecidableEq

/-- The characters of the pieces up to the first fault. -/
def charsOrFault (bytes : List UInt8) : Nat → List Piece → Except Fault Text
  | _, [] => .ok []
  | offset, .char c more :: pieces => do
      let text ← charsOrFault bytes (offset + more + 1) pieces
      return c :: text
  | offset, .fault reason more :: _ =>
      .error {
        offset
        firstByte := bytes.getD offset 0
        length := more + 1
        reason
      }

/-- The text that bytes encode, or their first fault. -/
def decode (bytes : List UInt8) : Except Fault Text :=
  charsOrFault bytes 0 (piecesFrom 0 bytes)

/-- The text that bytes encode, with the replacement character in the place of each fault. -/
def decodeLenient (bytes : List UInt8) : Text :=
  (piecesFrom 0 bytes).map fun
    | .char c _ => c
    | .fault _ _ => '\uFFFD'

/-- The encoding of a text. -/
def encode (text : Text) : List UInt8 :=
  text.flatMap String.utf8EncodeChar

/-- The words for a reason. -/
def Reason.message : Reason → Text
  | .invalidStart => "invalid start byte"
  | .invalidContinuation => "invalid continuation byte"
  | .unexpectedEnd => "unexpected end of data"

/-- The message for a fault: one byte is shown, several are counted. -/
def Fault.message (fault : Fault) : Text :=
  let place : Text :=
    if fault.length = 1 then
      "byte 0x" ++ hexadecimal 2 fault.firstByte.toNat ++ " in position " ++ ofNat fault.offset
    else
      "bytes in position " ++ ofNat fault.offset ++ "-" ++ ofNat (fault.offset + fault.length - 1)
  "'utf-8' codec can't decode " ++ place ++ ": " ++ fault.reason.message

end Utf8

end TestAudit.Text
