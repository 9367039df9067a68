import TestAudit.Proofs.Source.CallSpan
import TestAudit.Proofs.Source.LiteralMark
import TestAudit.Proofs.Source.Mask

namespace TestAudit

/-!
# Texts that differ only inside literals

Two texts have the same code when they have the same marks and agree on every
character outside their literals. They then have the same tokens, so two readings of
them stay side by side: they come to the same calls, whose closing parentheses are the
same, and masking makes one text of both. Only a span that was cut off may leave the
reading inside a literal, where what follows is no longer code in both texts.
-/

namespace Language

/-- An offset that a literal covers when the text is read from its beginning. -/
def InLiteral (language : Language) (text : Text) (offset : Nat) : Prop :=
  ∃ first length,
    language.Boundary text first ∧
      language.literalLength? (text.drop first) = some length ∧
      first ≤ offset ∧ offset < first + length

theorem InLiteral.not_code
    {language : Language}
    {text : Text}
    {offset : Nat}
    (inLiteral : language.InLiteral text offset) :
    ¬ language.Code text offset := by
  intro code
  obtain ⟨first, length, boundary, literal, after, before⟩ := inLiteral
  rcases Nat.eq_or_lt_of_le after with rfl | inside
  · have plain := code.plain
    rw [literal] at plain
    cases plain
  · exact boundary.not_inside (.literal literal) inside before code.reads

/-- Two texts have the same marks and the same characters of code. -/
structure SameCode (language : Language) (text other : Text) : Prop where
  marksAlike : Text.MarksAlike text other
  agree : ∀ offset, language.Code text offset → other[offset]? = text[offset]?

variable {language : Language} {text other : Text}

/-! ## Masked literals -/

theorem map_blanked_eq
    (alike : Text.MarksAlike text other) :
    other.map blanked = text.map blanked := by
  have unblurred : blanked ∘ Text.blurred = blanked := by
    funext c
    simp only [Function.comp_apply, blanked,
      Text.blurred_eq_iff (show Text.isLiteralMark '\n' = true by decide)]
  rw [← unblurred, ← List.map_map, ← List.map_map, alike]

theorem isLiteralMark_of_isQuote
    {c : Char}
    (quote : isQuote c = true) :
    Text.isLiteralMark c = true := by
  simp only [isQuote, Bool.or_eq_true, beq_iff_eq] at quote
  rcases quote with (rfl | rfl) | rfl <;> decide

/-- Behind its first character, a masked string shows no more than a mark at its end. -/
theorem maskString_cons_eq
    {first : Char}
    (alike : Text.MarksAlike text other) :
    maskString (first :: other) = maskString (first :: text) := by
  have sameLast : text.getLast?.map Text.blurred = other.getLast?.map Text.blurred := by
    rw [← List.getLast?_map, ← List.getLast?_map, alike]
  have front : other.dropLast.map blanked = text.dropLast.map blanked := by
    rw [List.map_dropLast, List.map_dropLast, map_blanked_eq alike]
  simp only [maskString, map_blanked_eq alike, front]
  cases ends : text.getLast? with
  | none =>
      rw [ends, Option.map_none, eq_comm, Option.map_eq_none_iff] at sameLast
      rw [sameLast]
  | some last =>
      obtain ⟨otherLast, otherEnds, sameBlur⟩ :=
        Option.map_eq_some_iff.mp (sameLast.symm.trans (congrArg _ ends))
      rw [otherEnds]
      by_cases quote : isQuote last = true
      · rw [← Text.eq_of_blurred_eq sameBlur.symm (isLiteralMark_of_isQuote quote)]
      · have otherPlain : ¬ isQuote otherLast = true := by
          intro otherQuote
          have same := Text.eq_of_blurred_eq sameBlur (isLiteralMark_of_isQuote otherQuote)
          exact quote (same ▸ otherQuote)
        simp only [quote, otherPlain, Bool.false_eq_true, ↓reduceIte]

/-- A literal on its own is still a literal. -/
theorem isSome_literal?_take
    {length : Nat}
    (literal : language.literalLength? text = some length) :
    (language.literal? (text.take length)).isSome = true := by
  obtain ⟨⟨form, measured⟩, found, rfl⟩ := Option.map_eq_some_iff.mp literal
  obtain ⟨own, onItsOwn⟩ := literal?_take found
  rw [onItsOwn, Option.isSome_some]

/-- Two literals with the same marks are masked alike. -/
theorem maskLiteral_eq
    (alike : Text.MarksAlike text other)
    (notCsharp : language ≠ .csharp)
    (isLiteral : (language.literal? text).isSome = true) :
    language.maskLiteral other = language.maskLiteral text := by
  obtain ⟨⟨form, length⟩, found⟩ := Option.isSome_iff_exists.mp isLiteral
  simp only [maskLiteral, alike.literal?_eq notCsharp, found, map_blanked_eq alike]
  split
  · rfl
  · cases text with
    | nil =>
        have empty : other = [] := List.length_eq_zero_iff.mp alike.length_eq
        rw [empty]
    | cons first rest =>
        have isHead : first ∈ language.literalHeads := by
          by_contra notHead
          have none : language.literalLength? (first :: rest) = none :=
            literalLength?_of_not_mem_literalHeads notHead
          simp [literalLength?, found] at none
        cases other with
        | nil => cases alike
        | cons otherFirst otherRest =>
            obtain ⟨sameBlur, restAlike⟩ := List.cons_eq_cons.mp alike
            have mark := isLiteralMark_of_mem_literalHeads notCsharp isHead
            obtain rfl : first = otherFirst := Text.eq_of_blurred_eq sameBlur mark
            exact maskString_cons_eq restAlike

/-! ## Tokens -/

section Tokens

variable (alike : Text.MarksAlike text other) (notCsharp : language ≠ .csharp)

include alike notCsharp

theorem TokenEnds.of_marksAlike
    {offset stop : Nat}
    (token : language.TokenEnds text offset stop) :
    language.TokenEnds other offset stop := by
  cases token with
  | literal found =>
      exact .literal ((alike.literalLength?_drop_eq notCsharp offset).trans found)
  | code within plain =>
      exact .code (alike.length_eq ▸ within)
        ((alike.literalLength?_drop_eq notCsharp offset).trans plain)

theorem Reads.of_marksAlike
    {first last : Nat}
    (reads : language.Reads text first last) :
    language.Reads other first last :=
  Relation.ReflTransGen.mono
    (fun _ _ token => TokenEnds.of_marksAlike alike notCsharp token) first last reads

theorem CodeFrom.of_marksAlike
    {first offset : Nat}
    (code : language.CodeFrom text first offset) :
    language.CodeFrom other first offset where
  reads := code.reads.of_marksAlike alike notCsharp
  within := alike.length_eq ▸ code.within
  plain := (alike.literalLength?_drop_eq notCsharp offset).trans code.plain

end Tokens

section TwoReadings

variable (same : language.SameCode text other) (notCsharp : language ≠ .csharp)

include same notCsharp

theorem SameCode.symm :
    language.SameCode other text where
  marksAlike := same.marksAlike.symm
  agree := by
    intro offset code
    exact (same.agree offset (code.of_marksAlike same.marksAlike.symm notCsharp)).symm

/-- A character of code that reading comes to stands in both texts. -/
theorem SameCode.of_plain
    {offset : Nat}
    {c : Char}
    (boundary : language.Boundary text offset)
    (plain : language.literalLength? (text.drop offset) = none)
    (here : text[offset]? = some c) :
    language.literalLength? (other.drop offset) = none ∧ other[offset]? = some c := by
  have within := (List.getElem?_eq_some_iff.mp here).1
  constructor
  · exact (same.marksAlike.literalLength?_drop_eq notCsharp offset).trans plain
  · exact (same.agree offset ⟨boundary, within, plain⟩).trans here

/-! ## Calls -/

/-- Up to where the next literal may begin, the rest of one text is the rest of the other. -/
theorem SameCode.drop_eq_or_exists
    {offset : Nat}
    (boundary : language.Boundary text offset) :
    other.drop offset = text.drop offset ∨
      ∃ front head rest otherRest,
        head ∈ language.literalHeads ∧
          text.drop offset = front ++ head :: rest ∧
          other.drop offset = front ++ head :: otherRest := by
  have sameLength := same.marksAlike.length_eq
  induction shape : text.drop offset generalizing offset with
  | nil =>
      left
      rw [List.drop_eq_nil_iff] at shape ⊢
      omega
  | cons c rest inductionHypothesis =>
      obtain ⟨within, here, rfl⟩ := Text.drop_eq_cons shape
      have otherWithin : offset < other.length := by omega
      have otherShape := List.drop_eq_getElem_cons otherWithin
      have otherHere := List.getElem?_eq_getElem otherWithin
      by_cases isHead : c ∈ language.literalHeads
      · -- A head is a mark, so it stands in both texts, whether it begins a literal or not.
        have alikeHere := congrArg (·[offset]?) same.marksAlike
        simp only [List.getElem?_map, here, otherHere, Option.map_some,
          Option.some.injEq] at alikeHere
        have sameHead : c = other[offset] :=
          Text.eq_of_blurred_eq alikeHere (isLiteralMark_of_mem_literalHeads notCsharp isHead)
        refine Or.inr ⟨[], c, text.drop (offset + 1), other.drop (offset + 1), isHead, rfl, ?_⟩
        rw [otherShape, ← sameHead, List.nil_append]
      · have plain : language.literalLength? (text.drop offset) = none := by
          rw [shape]
          exact literalLength?_of_not_mem_literalHeads isHead
        have sameHere := (same.of_plain notCsharp boundary plain here).2
        rw [otherHere, Option.some.injEq] at sameHere
        rw [otherShape, sameHere]
        rcases inductionHypothesis (boundary.tail (.code within plain)) rfl with
          sameRest | ⟨front, head, after, otherAfter, isHead, textRest, otherRest⟩
        · exact Or.inl (by rw [sameRest])
        · exact Or.inr ⟨c :: front, head, after, otherAfter, isHead, by rw [textRest]; rfl,
            by rw [otherRest]; rfl⟩

/-- Where reading comes to, one text opens a call when the other does. -/
theorem OpensCall.of_sameCode
    {callStart start : Nat}
    (boundary : language.Boundary text callStart)
    (opens : language.OpensCall text callStart start) :
    language.OpensCall other callStart start := by
  obtain ⟨opening, length, has, found, rfl⟩ := opens
  refine ⟨opening, length, has, ?_, rfl⟩
  rcases same.drop_eq_or_exists notCsharp boundary with
    sameRest | ⟨front, head, rest, otherRest, isHead, textRest, otherShape⟩
  · rw [sameRest]
    exact found
  · have stops := callOpening?_stopsAt has notCsharp isHead
    have upToHead :
        ∀ more,
          opening.matchLength? ⟨[], front ++ head :: more⟩ = opening.matchLength? ⟨[], front⟩ :=
      Pattern.matchLength?_followedBy stops ⟨[], front⟩
    rw [otherShape, upToHead]
    rw [textRest, upToHead] at found
    exact found

/-- The parentheses of code are opened and closed side by side. -/
theorem Closes.of_sameCode
    {depth first close : Nat}
    (boundary : language.Boundary text first)
    (closes : language.Closes text depth first close) :
    language.Closes other depth first close := by
  induction closes with
  | here plain isClosing =>
      obtain ⟨otherPlain, otherClosing⟩ := same.of_plain notCsharp boundary plain isClosing
      exact .here otherPlain otherClosing
  | literal found _ inductionHypothesis =>
      have otherFound := (same.marksAlike.literalLength?_drop_eq notCsharp _).trans found
      exact .literal otherFound (inductionHypothesis (boundary.tail (.literal found)))
  | opened plain isOpening _ inductionHypothesis =>
      have within := (List.getElem?_eq_some_iff.mp isOpening).1
      obtain ⟨otherPlain, otherOpening⟩ := same.of_plain notCsharp boundary plain isOpening
      exact .opened otherPlain otherOpening
        (inductionHypothesis (boundary.tail (.code within plain)))
  | closed plain isClosing _ inductionHypothesis =>
      have within := (List.getElem?_eq_some_iff.mp isClosing).1
      obtain ⟨otherPlain, otherClosing⟩ := same.of_plain notCsharp boundary plain isClosing
      exact .closed otherPlain otherClosing
        (inductionHypothesis (boundary.tail (.code within plain)))
  | other plain isOther notOpening notClosing _ inductionHypothesis =>
      have within := (List.getElem?_eq_some_iff.mp isOther).1
      obtain ⟨otherPlain, otherHere⟩ := same.of_plain notCsharp boundary plain isOther
      exact .other otherPlain otherHere notOpening notClosing
        (inductionHypothesis (boundary.tail (.code within plain)))

/-- As long as no span is cut off, the same spans are found in both texts. -/
theorem FoundFrom.of_sameCode
    {window first : Nat}
    {spans : List CallSpan}
    (boundary : language.Boundary text first)
    (found : language.FoundFrom text window first spans)
    (whole : ∀ span ∈ spans, span.truncated = false) :
    language.FoundFrom other window first spans := by
  -- That a call is the nearest one needs the way back, from the other text to this one.
  have sameOpenings
      {first offset start : Nat}
      (boundary : language.Boundary text first)
      (otherCode : language.CodeFrom other first offset)
      (otherOpens : language.OpensCall other offset start) :
      language.CodeFrom text first offset ∧ language.OpensCall text offset start := by
    have otherBoundary := boundary.of_marksAlike same.marksAlike notCsharp
    exact ⟨otherCode.of_marksAlike same.marksAlike.symm notCsharp,
      otherOpens.of_sameCode (same.symm notCsharp) notCsharp
        (otherBoundary.trans otherCode.reads)⟩
  induction found with
  | nothing none =>
      apply FoundFrom.nothing
      intro offset start otherCode otherOpens
      obtain ⟨code, opens⟩ := sameOpenings boundary otherCode otherOpens
      exact none offset start code opens
  | @call first span later code opens nearest reaches rest inductionHypothesis =>
      have isWhole := whole span List.mem_cons_self
      have toCall : language.Boundary text span.callStart := boundary.trans code.reads
      have toStart : language.Boundary text span.start :=
        toCall.trans (opens.reads notCsharp)
      obtain ⟨closes, near⟩ := reaches.closes isWhole
      have otherReaches : language.ReachesFar other window span := by
        rcases span with ⟨callStart, start, stop, truncated⟩
        obtain rfl : truncated = false := isWhole
        exact .closed (closes.of_sameCode same notCsharp toStart) near
      refine .call (code.of_marksAlike same.marksAlike notCsharp)
        (opens.of_sameCode same notCsharp toCall) ?_ otherReaches ?_
      · intro offset start otherCode otherOpens
        obtain ⟨codeThere, opensThere⟩ := sameOpenings boundary otherCode otherOpens
        exact nearest offset start codeThere opensThere
      · exact inductionHypothesis (toStart.trans closes.codeFrom.reads)
          fun other isLater => whole other (List.mem_cons_of_mem _ isLater)

theorem SameCode.callSpans_eq
    {window : Nat}
    (whole : ∀ span ∈ language.callSpans text window, span.truncated = false) :
    language.callSpans other window = language.callSpans text window :=
  (language.foundFrom_callSpans other window).unique
    ((language.foundFrom_callSpans text window).of_sameCode same notCsharp .refl whole)

/-! ## Masks -/

theorem SameCode.mask_drop_eq
    {offset : Nat}
    (boundary : language.Boundary text offset) :
    language.mask (other.drop offset) = language.mask (text.drop offset) := by
  have sameLength := same.marksAlike.length_eq
  induction remaining : text.length - offset using Nat.strongRecOn generalizing offset with
  | ind remaining inductionHypothesis =>
      subst remaining
      by_cases within : offset < text.length
      · cases literal : language.literalLength? (text.drop offset) with
        | some length =>
            have positive := (literalLength?_bounds literal).1
            have otherLiteral :=
              (same.marksAlike.literalLength?_drop_eq notCsharp offset).trans literal
            have sameLiteral :=
              maskLiteral_eq ((same.marksAlike.drop offset).take length) notCsharp
                (isSome_literal?_take literal)
            have sameRest :=
              inductionHypothesis _ (by omega) (boundary.tail (.literal literal)) rfl
            rw [mask_drop_of_literal literal, mask_drop_of_literal otherLiteral,
              sameLiteral, sameRest]
        | none =>
            have here := List.getElem?_eq_getElem within
            obtain ⟨otherPlain, otherHere⟩ := same.of_plain notCsharp boundary literal here
            have sameRest :=
              inductionHypothesis _ (by omega) (boundary.tail (.code within literal)) rfl
            rw [mask_drop_of_plain literal here, mask_drop_of_plain otherPlain otherHere,
              sameRest]
      · rw [List.drop_eq_nil_of_le (by omega), List.drop_eq_nil_of_le (by omega)]

/-- Texts with the same code are one text when they are masked. -/
theorem SameCode.mask_eq :
    language.mask other = language.mask text := by
  simpa using same.mask_drop_eq notCsharp .refl

end TwoReadings

end Language

end TestAudit
