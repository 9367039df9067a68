import TestAudit.Text.Basic

namespace TestAudit.Text

/-!
# Lines

Two views of line ends. `lines` cuts a text at every kind of line end and drops
the ends; `unifyNewlines` writes each carriage return, alone or before a line
feed, as one line feed.
-/

/-- The characters that end a line. -/
def isLineEnd (c : Char) : Bool :=
  (0x0A ≤ c.toNat && c.toNat ≤ 0x0D) ||
    (0x1C ≤ c.toNat && c.toNat ≤ 0x1E) ||
    c.toNat == 0x85 || c.toNat == 0x2028 || c.toNat == 0x2029

/--
The lines of a text without their ends. A carriage return and the line feed
after it are one end, and an end at the very end of the text opens no line.
-/
def lines : Text → List Text
  | [] => []
  | '\r' :: '\n' :: rest => [] :: lines rest
  | c :: rest =>
      if isLineEnd c then
        [] :: lines rest
      else
        match lines rest with
        | [] => [[c]]
        | line :: more => (c :: line) :: more

/-- The text with every carriage return, and the line feed after it, written as a line feed. -/
def unifyNewlines : Text → Text
  | [] => []
  | '\r' :: '\n' :: rest => '\n' :: unifyNewlines rest
  | '\r' :: rest => '\n' :: unifyNewlines rest
  | c :: rest => c :: unifyNewlines rest

end TestAudit.Text
