import Mathlib.Data.List.Basic
import Mathlib.Data.List.Induction
import TestAudit.Proofs.Source.Token

namespace TestAudit

/-!
# Marks of literals

Where a literal ends is told by a few characters: the quotes, the backslash, the
signs of comments and the end of a line. Blurring a text leaves these marks and puts
a blank in the place of every other character. In scripts and in Python the openings
of literals are made of marks too, so a blurred text has its literals where the text
has them. In C# the at sign, which is no mark, opens a string without escapes.
-/

namespace Text

/-- The characters that begin, end or escape a string or a comment. -/
def literalMarks : Text :=
  "\n\\\x27\x22\x60/*#"

/-- Whether a character can begin, end or escape a string or a comment. -/
def isLiteralMark (c : Char) : Bool :=
  literalMarks.contains c

/-- A mark, or a blank in the place of any other character. -/
def blurred (c : Char) : Char :=
  if isLiteralMark c then c else ' '

/-- Blurring brings no mark in. -/
theorem blurred_eq_iff
    {mark : Char}
    (isMark : isLiteralMark mark = true)
    (c : Char) :
    blurred c = mark ↔ c = mark := by
  unfold blurred
  split
  · exact Iff.rfl
  · next plain =>
      constructor
      · rintro rfl
        exact absurd isMark (by decide)
      · rintro rfl
        exact (plain isMark).elim

theorem blurred_beq_eq
    {mark : Char}
    (isMark : isLiteralMark mark = true)
    (c : Char) :
    (blurred c == mark) = (c == mark) := by
  rw [Bool.eq_iff_iff, beq_iff_eq, beq_iff_eq, blurred_eq_iff isMark]

theorem eq_of_blurred_eq
    {c d : Char}
    (same : blurred c = blurred d)
    (isMark : isLiteralMark c = true) :
    c = d := by
  have unchanged : blurred c = c := (blurred_eq_iff isMark c).mpr rfl
  exact ((blurred_eq_iff isMark d).mp (same.symm.trans unchanged)).symm

theorem isPrefixOf_map_blurred
    {beginning : Text}
    (marked : beginning.all isLiteralMark = true)
    (text : Text) :
    beginning.isPrefixOf (text.map blurred) = beginning.isPrefixOf text := by
  induction beginning generalizing text with
  | nil => simp
  | cons mark beginning inductionHypothesis =>
      rw [List.all_cons, Bool.and_eq_true] at marked
      cases text with
      | nil => rfl
      | cons c text =>
          have sameHead : (mark == blurred c) = (mark == c) := by
            rw [BEq.comm, blurred_beq_eq marked.1, BEq.comm]
          rw [List.map_cons, List.isPrefixOf_cons_cons, List.isPrefixOf_cons_cons, sameHead,
            inductionHypothesis marked.2]

theorem afterStart?_map_blurred
    {beginning : Text}
    (marked : beginning.all isLiteralMark = true)
    (text : Text) :
    afterStart? (text.map blurred) beginning =
      (text.afterStart? beginning).map (List.map blurred) := by
  induction beginning generalizing text with
  | nil => cases text <;> rfl
  | cons mark beginning inductionHypothesis =>
      rw [List.all_cons, Bool.and_eq_true] at marked
      cases text with
      | nil => rfl
      | cons c text =>
          simp only [List.map_cons, afterStart?, blurred_eq_iff marked.1]
          split
          · exact inductionHypothesis marked.2 text
          · rfl

end Text

open Text

namespace LiteralForm

/-- Whether what opens and closes a literal of the form is made of marks. -/
def isMarked : LiteralForm → Bool
  | .lineComment opening => opening.all isLiteralMark
  | .blockComment opening closing => (opening ++ closing).all isLiteralMark
  | .verbatim opening => opening.all isLiteralMark
  | .quoted delimiter _ => delimiter.all isLiteralMark

theorem lengthThrough_map_blurred
    {closing : Text}
    (marked : closing.all isLiteralMark = true)
    (text : Text) :
    lengthThrough closing (text.map blurred) = lengthThrough closing text := by
  induction text with
  | nil => rfl
  | cons c rest inductionHypothesis =>
      have closes := isPrefixOf_map_blurred marked (c :: rest)
      rw [List.map_cons] at closes ⊢
      rw [lengthThrough, lengthThrough, closes, inductionHypothesis]

theorem verbatimLength_map_blurred
    (text : Text) :
    verbatimLength (text.map blurred) = verbatimLength text := by
  have quote : blurred '\x22' = '\x22' := by decide
  fun_induction verbatimLength text with
  | case1 => rfl
  | case2 rest inductionHypothesis =>
      simpa [verbatimLength, quote] using inductionHypothesis
  | case3 rest notDoubled =>
      cases rest with
      | nil => simp [verbatimLength, quote]
      | cons c rest =>
          have other : blurred c ≠ '\x22' := by
            rw [ne_eq, blurred_eq_iff (by decide)]
            rintro rfl
            exact notDoubled rest rfl
          simp [verbatimLength, quote, other]
  | case4 c rest notDoubled notQuote inductionHypothesis =>
      have other : blurred c ≠ '\x22' := by
        rw [ne_eq, blurred_eq_iff (by decide)]
        exact notQuote
      simpa [verbatimLength, other] using inductionHypothesis

theorem quotedLength_cons
    {delimiter rest : Text}
    {multiline : Bool}
    {c : Char}
    (notEscape : c ≠ '\\') :
    quotedLength delimiter multiline (c :: rest) =
      if delimiter.isPrefixOf (c :: rest) then
        delimiter.length
      else if c = '\n' ∧ multiline = false then
        0
      else
        quotedLength delimiter multiline rest + 1 := by
  rw [quotedLength] <;> simp [notEscape]

theorem quotedLength_map_blurred
    {delimiter : Text}
    (marked : delimiter.all isLiteralMark = true)
    (multiline : Bool)
    (text : Text) :
    quotedLength delimiter multiline (text.map blurred) =
      quotedLength delimiter multiline text := by
  have escape : blurred '\\' = '\\' := by decide
  have step
      {c : Char}
      {rest : Text}
      (notEscape : c ≠ '\\')
      (sameRest :
        quotedLength delimiter multiline (rest.map blurred) =
          quotedLength delimiter multiline rest) :
      quotedLength delimiter multiline ((c :: rest).map blurred) =
        quotedLength delimiter multiline (c :: rest) := by
    have stillNoEscape : blurred c ≠ '\\' := by
      rwa [ne_eq, blurred_eq_iff (by decide)]
    have closes := isPrefixOf_map_blurred marked (c :: rest)
    rw [List.map_cons] at closes ⊢
    simp only [quotedLength_cons stillNoEscape, quotedLength_cons notEscape, closes,
      sameRest, blurred_eq_iff (show isLiteralMark '\n' = true by decide)]
  induction text using List.twoStepInduction with
  | nil => rfl
  | singleton c =>
      by_cases isEscape : c = '\\'
      · subst isEscape
        rfl
      · exact step isEscape rfl
  | cons_cons c d rest skipped inductionHypothesis =>
      by_cases isEscape : c = '\\'
      · -- A backslash takes the next character along, whichever it is.
        subst isEscape
        simpa [quotedLength, escape] using skipped
      · exact step isEscape (inductionHypothesis d)

theorem bodyLength_map_blurred
    {form : LiteralForm}
    (marked : form.isMarked = true)
    (body : Text) :
    form.bodyLength (body.map blurred) = form.bodyLength body := by
  cases form with
  | lineComment opening =>
      have goesOn : (· != '\n') ∘ blurred = (· != '\n') := by
        funext c
        rw [Function.comp_apply, bne, bne, blurred_beq_eq (by decide)]
      rw [bodyLength, bodyLength, List.takeWhile_map, List.length_map, goesOn]
  | blockComment opening closing =>
      rw [isMarked, List.all_append, Bool.and_eq_true] at marked
      exact lengthThrough_map_blurred marked.2 body
  | verbatim opening => exact verbatimLength_map_blurred body
  | quoted delimiter multiline => exact quotedLength_map_blurred marked multiline body

theorem length?_map_blurred
    {form : LiteralForm}
    (marked : form.isMarked = true)
    (text : Text) :
    form.length? (text.map blurred) = form.length? text := by
  have opens : form.opening.all isLiteralMark = true := by
    cases form with
    | blockComment opening closing =>
        rw [isMarked, List.all_append, Bool.and_eq_true] at marked
        exact marked.1
    | lineComment | verbatim | quoted => exact marked
  simp only [length?, afterStart?_map_blurred opens, Option.map_map, Function.comp_def,
    bodyLength_map_blurred marked]

end LiteralForm

namespace Language

theorem isMarked_of_mem_literalForms
    {language : Language}
    {form : LiteralForm}
    (notCsharp : language ≠ .csharp)
    (member : form ∈ language.literalForms) :
    form.isMarked = true := by
  have marked : language.literalForms.all (·.isMarked) = true := by
    cases language with
    | csharp => contradiction
    | script | python | go => decide
  exact List.all_eq_true.mp marked form member

/-- A blurred text has the literals of the text. -/
theorem literal?_map_blurred
    {language : Language}
    (notCsharp : language ≠ .csharp)
    (text : Text) :
    language.literal? (text.map blurred) = language.literal? text := by
  rw [literal?, literal?, ← List.head?_filterMap, ← List.head?_filterMap]
  congr 1
  apply List.filterMap_congr
  intro form member
  rw [LiteralForm.length?_map_blurred (isMarked_of_mem_literalForms notCsharp member)]

theorem isLiteralMark_of_mem_literalHeads
    {language : Language}
    {c : Char}
    (notCsharp : language ≠ .csharp)
    (isHead : c ∈ language.literalHeads) :
    isLiteralMark c = true := by
  have marked : language.literalHeads.all isLiteralMark = true := by
    cases language with
    | csharp => contradiction
    | script | python | go => decide
  exact List.all_eq_true.mp marked c isHead

end Language

/-! ## Texts with the same marks -/

namespace Text

/-- Two texts have the same marks at the same offsets. -/
def MarksAlike (text other : Text) : Prop :=
  text.map blurred = other.map blurred

namespace MarksAlike

variable {language : Language} {text other : Text}

theorem symm
    (alike : MarksAlike text other) :
    MarksAlike other text :=
  Eq.symm alike

theorem length_eq
    (alike : MarksAlike text other) :
    other.length = text.length := by
  simpa using (congrArg List.length alike).symm

theorem drop
    (alike : MarksAlike text other)
    (count : Nat) :
    MarksAlike (text.drop count) (other.drop count) := by
  rw [MarksAlike, List.map_drop, List.map_drop, alike]

theorem take
    (alike : MarksAlike text other)
    (count : Nat) :
    MarksAlike (text.take count) (other.take count) := by
  rw [MarksAlike, List.map_take, List.map_take, alike]

theorem literal?_eq
    (alike : MarksAlike text other)
    (notCsharp : language ≠ .csharp) :
    language.literal? other = language.literal? text := by
  rw [← Language.literal?_map_blurred notCsharp, ← alike,
    Language.literal?_map_blurred notCsharp]

/-- Literals begin and end at the same offsets. -/
theorem literalLength?_drop_eq
    (alike : MarksAlike text other)
    (notCsharp : language ≠ .csharp)
    (offset : Nat) :
    language.literalLength? (other.drop offset) =
      language.literalLength? (text.drop offset) := by
  rw [Language.literalLength?, Language.literalLength?,
    (alike.drop offset).literal?_eq notCsharp]

end MarksAlike

/-- Two texts of one length have the same marks when they differ in no mark. -/
theorem marksAlike_of_length_eq
    {text other : Text}
    (sameLength : other.length = text.length)
    (noMark :
      ∀ (offset : Nat) (c d : Char),
        text[offset]? = some c →
        other[offset]? = some d →
        c ≠ d →
        isLiteralMark c = false ∧ isLiteralMark d = false) :
    MarksAlike text other := by
  apply List.ext_getElem
  · rw [List.length_map, List.length_map, sameLength]
  · intro offset within otherWithin
    rw [List.length_map] at within otherWithin
    rw [List.getElem_map, List.getElem_map]
    by_cases same : text[offset] = other[offset]
    · rw [same]
    · have plain :=
        noMark offset _ _ (List.getElem?_eq_getElem within)
          (List.getElem?_eq_getElem otherWithin) same
      simp [blurred, plain]

end Text

end TestAudit
