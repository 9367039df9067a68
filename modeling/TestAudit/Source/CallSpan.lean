import TestAudit.Pattern.Occurrence
import TestAudit.Source.Literal

namespace TestAudit

/-!
# Argument spans of script-execution calls

Some calls run a script inside the page under test. Their arguments are where a
test can do harm. A call counts when its opening stands in code, outside every
literal; its span reaches to the parenthesis that closes it, literals being
passed over, or is cut off after a number of characters.
-/

/-- The arguments of one call. -/
structure CallSpan where
  /-- Where the opening of the call begins. -/
  callStart : Nat
  /-- The offset after the opening parenthesis. -/
  start : Nat
  /-- The offset of the closing parenthesis, or the point where the span was cut off. -/
  stop : Nat
  /-- Whether no closing parenthesis was found before the cut. -/
  truncated : Bool
  deriving Repr, DecidableEq

namespace CallSpan

/-- The characters of a span. -/
def argument (span : CallSpan) (text : Text) : Text :=
  (text.take span.stop).drop span.start

/-- The span as a region of its text. -/
def region (span : CallSpan) (text : Text) : Region where
  text := text
  start := span.start
  stop := span.stop

/-- The greatest length of a span. -/
def defaultWindow : Nat :=
  4000

end CallSpan

namespace Language

/-- The names of the methods that run a script in the page. -/
def scriptCalls : Language → List Text
  | .script =>
      ["evaluate", "evaluateHandle", "evaluateAll", "$eval", "$$eval", "addInitScript"]
  | .csharp =>
      [ "ExecuteScript", "ExecuteAsyncScript", "EvaluateAsync", "EvaluateHandleAsync",
        "EvalOnSelectorAsync", "EvalOnSelectorAllAsync", "AddInitScriptAsync" ]
  | .python =>
      [ "execute_script", "execute_async_script", "evaluate", "evaluate_handle",
        "eval_on_selector", "eval_on_selector_all", "add_init_script" ]
  | .go => []

/-- A type argument in angle brackets without nesting. -/
def typeArgument : Pattern :=
  .inOrder [
    .one (.exactly '<'),
    .many (.noneOf "<>()"),
    .one (.exactly '>')]

/-- The opening of a script-execution call, from the dot to the parenthesis. -/
def callOpening? (language : Language) : Option Pattern :=
  let opening (middle : List Pattern) : Pattern :=
    .inOrder (
      [.one (.exactly '.'), .many .blank, .anyText language.scriptCalls] ++ middle ++
        [.many .blank, .one (.exactly '(')])
  match language with
  | .script | .python => some (opening [])
  | .csharp => some (opening [.many .blank, .optional typeArgument])
  | .go => none

/--
The distance to the parenthesis that closes `depth` open ones, within a number of
characters. Literals are passed over as a whole; `skip` characters are the rest
of one.
-/
def closingDistance?
    (language : Language) :
    (window depth skip : Nat) →
    Text →
    Option Nat
  | 0, _, _, _ => none
  | _, _, _, [] => none
  | window + 1, depth, skip + 1, _ :: rest =>
      (closingDistance? language window depth skip rest).map (· + 1)
  | window + 1, depth, 0, c :: rest =>
      match language.literalLength? (c :: rest) with
      | some length =>
          (closingDistance? language window depth (length - 1) rest).map (· + 1)
      | none =>
          if c = '(' then
            (closingDistance? language window (depth + 1) 0 rest).map (· + 1)
          else if c = ')' then
            if depth ≤ 1 then
              some 0
            else
              (closingDistance? language window (depth - 1) 0 rest).map (· + 1)
          else
            (closingDistance? language window depth 0 rest).map (· + 1)

/-- The span of a call whose opening has the given length and is followed by the given text. -/
def spanAfter
    (language : Language)
    (window callStart openingLength : Nat)
    (arguments : Text) :
    CallSpan :=
  let start := callStart + openingLength
  match language.closingDistance? window 1 0 arguments with
  | some distance =>
      { callStart, start, stop := start + distance, truncated := false }
  | none =>
      { callStart, start, stop := start + min arguments.length window, truncated := true }

/--
The spans in the rest of a text, which begins at the given offset, once `skip`
characters are passed over.
-/
def callSpansFrom
    (language : Language)
    (opening : Pattern)
    (window : Nat) :
    (skip offset : Nat) →
    Text →
    List CallSpan
  | _, _, [] => []
  | skip + 1, offset, _ :: rest =>
      callSpansFrom language opening window skip (offset + 1) rest
  | 0, offset, c :: rest =>
      match language.literalLength? (c :: rest) with
      | some length =>
          callSpansFrom language opening window (length - 1) (offset + 1) rest
      | none =>
          match opening.matchLength? ⟨[], c :: rest⟩ with
          | none => callSpansFrom language opening window 0 (offset + 1) rest
          | some length =>
              let span := language.spanAfter window offset length ((c :: rest).drop length)
              span ::
                callSpansFrom language opening window (span.stop - offset - 1) (offset + 1) rest

/-- The argument spans of all script-execution calls of a text, from left to right. -/
def callSpans (language : Language) (text : Text) (window : Nat) : List CallSpan :=
  match language.callOpening? with
  | none => []
  | some opening => callSpansFrom language opening window 0 0 text

end Language

end TestAudit
