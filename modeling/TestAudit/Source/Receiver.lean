import TestAudit.Pattern.Basic

namespace TestAudit.Receiver

/-!
# Receivers of a member access

The receiver of a member access is the chain of names, dots and bracketed groups
just before it. It is found by walking back: a group in brackets is passed over
as a whole, and white space or any other character ends the chain.

A receiver is read-only when it is the direct result of a call that returns a
detached snapshot of the page, since writing to a snapshot changes nothing.
-/

/-- Whether a character outside brackets belongs to a chain. -/
def isChainChar (c : Char) : Bool :=
  Text.isWord c || c == '$' || c == '.' || c == '?'

/-- The bracket that opens what the given one closes. -/
def openerOf? : Char → Option Char
  | ')' => some '('
  | ']' => some '['
  | _ => none

/--
The length of the group that ends a text, which is read backwards from behind its
last closing bracket: `depth` brackets are open. Other brackets do not count.
-/
def groupLength? (closer opener : Char) (depth : Nat) : Text → Option Nat
  | [] => none
  | c :: rest =>
      if c = closer then
        (groupLength? closer opener (depth + 1) rest).map (· + 1)
      else if c = opener then
        if depth ≤ 1 then
          some 1
        else
          (groupLength? closer opener (depth - 1) rest).map (· + 1)
      else
        (groupLength? closer opener depth rest).map (· + 1)

/--
The length of the chain that ends a text read backwards, once `skip` characters of
a group are passed over; nothing when a group has no opening bracket.
-/
def chainLength? : (skip : Nat) → Text → Option Nat
  | _, [] => some 0
  | skip + 1, _ :: rest => (chainLength? skip rest).map (· + 1)
  | 0, c :: rest =>
      match openerOf? c with
      | some opener =>
          match groupLength? c opener 1 rest with
          | some length => (chainLength? length rest).map (· + 1)
          | none => none
      | none =>
          if isChainChar c then
            (chainLength? 0 rest).map (· + 1)
          else
            some 0

/--
The chain that ends just before an offset and reaches back to a floor at most.

A group without an opening bracket above the floor takes the chain to one
character below the floor. Below the beginning of the text that is its last
character, so the chain is then that character at the end of the text and empty
before it.
-/
def chain (text : Text) (offset floor : Nat) : Text :=
  let reach := (text.drop floor).take (offset - floor)
  match chainLength? 0 reach.reverse with
  | some length => reach.drop (reach.length - length)
  | none => (text.take offset).drop (if floor = 0 then text.length - 1 else floor - 1)

/-- Calls that return a detached snapshot. -/
def snapshotCalls : List Text :=
  ["getComputedStyle", "getBoundingClientRect", "getClientRects", "cloneNode"]

/-- Whether a text ends, white space aside, in a word that is the name of a snapshot call. -/
def endsInSnapshotCall (text : Text) : Bool :=
  let callee := text.trimEnd
  snapshotCalls.any fun name =>
    callee.endsWith name &&
      !(callee.take (callee.length - name.length)).getLast?.any Text.isWord

/-- A receiver without the dots, question marks and white space that lead on to a member. -/
def withoutAccess (receiver : Text) : Text :=
  Text.trimEnd (Text.dropEndWhile (fun c => c == '.' || c == '?') receiver.trimEnd)

/-- Whether a receiver is the direct result of a snapshot call. -/
def isReadOnly (receiver : Text) : Bool :=
  let call := withoutAccess receiver
  match call.reverse with
  | ')' :: inside =>
      match groupLength? ')' '(' 1 inside with
      | some length => endsInSnapshotCall (call.take (call.length - length - 1))
      | none => false
  | _ => false

end TestAudit.Receiver
