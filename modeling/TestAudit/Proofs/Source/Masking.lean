import TestAudit.Proofs.Source.LiteralContents

namespace TestAudit.Language

/-!
# Masked texts character by character

Every character of a text is code or in one of its literals, and which character stands
in its place in the masked text follows from that: code stays, a comment is blanked, and
a string keeps its first character and a quote at its end. So whatever else is left of a
masked text, save blanks, is code.
-/

/-- A masked text holds the code of a text, and no more of its literals than their quotes. -/
structure MaskedExactly (language : Language) (text masked : Text) : Prop where
  sameLength : masked.length = text.length
  sameLines : ∀ offset : Nat, masked[offset]? = some '\n' ↔ text[offset]? = some '\n'
  code : ∀ offset, language.Code text offset → masked[offset]? = text[offset]?
  comment :
    ∀ first form length,
      language.Boundary text first →
      language.literal? (text.drop first) = some (form, length) →
      form.isComment = true →
      ∀ offset,
        first ≤ offset →
        offset < first + length →
        masked[offset]? = text[offset]?.map blanked
  string :
    ∀ first form length,
      language.Boundary text first →
      language.literal? (text.drop first) = some (form, length) →
      form.isComment = false →
      masked[first]? = text[first]? ∧
        ∀ offset,
          first < offset →
          offset < first + length →
          masked[offset]? =
            text[offset]?.map fun c =>
              if offset + 1 = first + length ∧ isQuote c then c else blanked c

/-- Whether a character can begin a string. -/
def isStringHead (c : Char) : Bool :=
  isQuote c || c == '@'

variable {language : Language} {text : Text}

/-! ## Tokens of a masked text -/

theorem code_or_inLiteral
    {offset : Nat}
    (within : offset < text.length) :
    language.Code text offset ∨ language.InLiteral text offset := by
  obtain ⟨first, stop, reads, token, begins, covers⟩ :=
    @Reads.exists_token language text 0 offset (Nat.zero_le offset) within
  cases token with
  | literal literal => exact Or.inr ⟨first, _, reads, literal, begins, covers⟩
  | code inText plain =>
      obtain rfl : first = offset := by omega
      exact Or.inl ⟨reads, inText, plain⟩

theorem length_maskLiteral
    (language : Language)
    (literal : Text) :
    (language.maskLiteral literal).length = literal.length :=
  (language.forall₂_maskLiteral literal).length_eq.symm

/-- From a boundary on, a masked text is what the rest of the text is masked as. -/
theorem drop_mask_of_boundary
    {offset : Nat}
    (boundary : language.Boundary text offset) :
    (language.mask text).drop offset = language.mask (text.drop offset) := by
  induction boundary with
  | refl => rfl
  | @tail offset next _ token inductionHypothesis =>
      have goesOn :
          (language.mask text).drop next =
            (language.mask (text.drop offset)).drop (next - offset) := by
        rw [← inductionHypothesis, List.drop_drop, Nat.add_sub_cancel' (Nat.le_of_lt token.lt)]
      rw [goesOn]
      cases token with
      | @literal length literal =>
          have bounds := literalLength?_bounds literal
          rw [mask_drop_of_literal literal, Nat.add_sub_cancel_left]
          apply List.drop_left'
          rw [length_maskLiteral, List.length_take, Nat.min_eq_left bounds.2]
      | code within plain =>
          rw [mask_drop_of_plain plain (List.getElem?_eq_getElem within),
            Nat.add_sub_cancel_left]
          rfl

theorem getElem?_mask_of_code
    {offset : Nat}
    (code : language.Code text offset) :
    (language.mask text)[offset]? = text[offset]? := by
  have here := List.getElem?_eq_getElem code.within
  have first := congrArg (·[0]?) (drop_mask_of_boundary code.reads)
  rw [mask_drop_of_plain code.plain here] at first
  simpa [here] using first

/-- In a literal of the text, a masked text is what the literal is masked as. -/
theorem getElem?_mask_of_literal
    {first length index : Nat}
    (boundary : language.Boundary text first)
    (literal : language.literalLength? (text.drop first) = some length)
    (inside : index < length) :
    (language.mask text)[first + index]? =
      (language.maskLiteral ((text.drop first).take length))[index]? := by
  have bounds := literalLength?_bounds literal
  rw [← List.getElem?_drop, drop_mask_of_boundary boundary, mask_drop_of_literal literal,
    List.getElem?_append_left]
  rw [length_maskLiteral, List.length_take, Nat.min_eq_left bounds.2]
  exact inside

/-! ## Masked literals -/

/-- Of a string, the first character is kept, and the last one if it is a quote. -/
theorem maskString_cons_concat
    (first last : Char)
    (middle : Text) :
    maskString (first :: (middle ++ [last])) =
      first :: (middle.map blanked ++ [if isQuote last then last else blanked last]) := by
  simp only [maskString, List.getLast?_concat, List.dropLast_concat]
  by_cases quote : isQuote last = true <;> simp [quote]

theorem getElem?_maskString
    (literal : Text)
    (index : Nat) :
    (maskString literal)[index]? =
      literal[index]?.map fun c =>
        if index = 0 ∨ index + 1 = literal.length ∧ isQuote c then c else blanked c := by
  cases literal with
  | nil => rfl
  | cons first rest =>
      rcases List.eq_nil_or_concat rest with rfl | ⟨middle, last, rfl⟩
      · cases index <;> simp [maskString]
      · rw [List.concat_eq_append, maskString_cons_concat]
        cases index with
        | zero => simp
        | succ index =>
            simp only [List.getElem?_cons_succ, List.length_cons, List.length_append]
            rcases Nat.lt_trichotomy index middle.length with inMiddle | rfl | beyond
            · rw [List.getElem?_append_left (by simpa using inMiddle),
                List.getElem?_append_left inMiddle, List.getElem?_map]
              simp [Nat.ne_of_lt inMiddle]
            · simp
            · rw [List.getElem?_eq_none (by simp; omega), List.getElem?_eq_none (by simp; omega)]
              rfl

/-- A literal is masked by its form, as it is found in the text. -/
theorem maskLiteral_take
    {form : LiteralForm}
    {length : Nat}
    (found : language.literal? text = some (form, length)) :
    language.maskLiteral (text.take length) =
      if form.isComment then (text.take length).map blanked
      else maskString (text.take length) := by
  obtain ⟨measured, onItsOwn⟩ := literal?_take found
  simp only [maskLiteral, onItsOwn]

section Literal

variable
  {first length offset : Nat}
  {form : LiteralForm}
  (boundary : language.Boundary text first)
  (found : language.literal? (text.drop first) = some (form, length))
  (after : first ≤ offset)
  (inside : offset < first + length)

include boundary found after inside

theorem getElem?_mask_of_comment
    (isComment : form.isComment = true) :
    (language.mask text)[offset]? = text[offset]?.map blanked := by
  obtain ⟨index, rfl⟩ := Nat.exists_eq_add_of_le after
  have inLiteral : index < length := by omega
  rw [getElem?_mask_of_literal boundary (literalLength?_of_literal? found) inLiteral,
    maskLiteral_take found, if_pos isComment, List.getElem?_map,
    List.getElem?_take_of_lt inLiteral, List.getElem?_drop]

theorem getElem?_mask_of_string
    (isString : form.isComment = false) :
    (language.mask text)[offset]? =
      text[offset]?.map fun c =>
        if offset = first ∨ offset + 1 = first + length ∧ isQuote c then c else blanked c := by
  obtain ⟨index, rfl⟩ := Nat.exists_eq_add_of_le after
  have inLiteral : index < length := by omega
  have bounds := literalLength?_bounds (literalLength?_of_literal? found)
  rw [getElem?_mask_of_literal boundary (literalLength?_of_literal? found) inLiteral,
    maskLiteral_take found, if_neg (by simp [isString]), getElem?_maskString,
    List.getElem?_take_of_lt inLiteral, List.getElem?_drop, List.length_take,
    Nat.min_eq_left bounds.2]
  simp only [Nat.add_assoc, Nat.add_left_cancel_iff, Nat.add_eq_left]

end Literal

/-! ## The whole text -/

theorem maskedExactly_mask
    (language : Language)
    (text : Text) :
    language.MaskedExactly text (language.mask text) where
  sameLength := language.length_mask text
  sameLines := getElem?_mask_eq_lineFeed_iff language text
  code := fun _ => getElem?_mask_of_code
  comment := by
    intro first form length boundary found isComment offset after inside
    exact getElem?_mask_of_comment boundary found after inside isComment
  string := by
    intro first form length boundary found isString
    have bounds := literalLength?_bounds (literalLength?_of_literal? found)
    refine ⟨?_, ?_⟩
    · rw [getElem?_mask_of_string boundary found (Nat.le_refl first) (by omega) isString]
      simp
    · intro offset after inside
      rw [getElem?_mask_of_string boundary found (Nat.le_of_lt after) inside isString]
      simp only [Nat.ne_of_gt after, false_or]

/--
Masking keeps the offsets and the lines of a text. Every character is code and stays, or
is in a comment and is blanked, or is in a string, of which the first character and a
quote at the end stay and all else is blanked.
-/
theorem mask_exact
    (language : Language)
    (text : Text) :
    language.MaskedExactly text (language.mask text) ∧
      ∀ offset,
        offset < text.length →
        language.Code text offset ∨ language.InLiteral text offset :=
  ⟨maskedExactly_mask language text, fun _ => code_or_inLiteral⟩

/-! ## What masking leaves -/

theorem isStringHead_of_opening
    {form : LiteralForm}
    {c : Char}
    {opening : Text}
    (member : form ∈ language.literalForms)
    (isString : form.isComment = false)
    (opens : form.opening = c :: opening) :
    isStringHead c = true := by
  have heads :
      (language.literalForms.all fun form =>
        form.isComment || form.opening.head?.all isStringHead) = true := by
    cases language <;> decide
  have head := List.all_eq_true.mp heads form member
  simpa [isString, opens] using head

/-- A character left of a text is code, unless it can begin or end a string. -/
theorem code_of_getElem?_mask
    {offset : Nat}
    {c : Char}
    (here : (language.mask text)[offset]? = some c)
    (notBlank : Text.isBlank c = false)
    (notHead : isStringHead c = false) :
    language.Code text offset := by
  have inText := getElem?_of_getElem?_mask here notBlank
  have within := (List.getElem?_eq_some_iff.mp inText).1
  have notBlanked (d : Char) : c ≠ blanked d := by
    rintro rfl
    rw [isBlank_blanked] at notBlank
    cases notBlank
  rcases @code_or_inLiteral language text offset within with
    code | ⟨first, length, boundary, literal, after, inside⟩
  · exact code
  · obtain ⟨⟨form, _⟩, found, rfl⟩ := Option.map_eq_some_iff.mp literal
    cases kind : form.isComment with
    | true =>
        rw [getElem?_mask_of_comment boundary found after inside kind, inText] at here
        exact (notBlanked c (Option.some.inj here).symm).elim
    | false =>
        have notQuote : isQuote c = false := (Bool.or_eq_false_iff.mp notHead).1
        rw [getElem?_mask_of_string boundary found after inside kind, inText] at here
        simp only [Option.map_some, Option.some.injEq, notQuote, Bool.false_eq_true, and_false,
          or_false] at here
        split at here
        · next isFirst =>
            subst isFirst
            obtain ⟨member, measures⟩ := literal?_eq_some found
            obtain ⟨body, shape, _⟩ := LiteralForm.length?_eq_some_iff.mp measures
            obtain ⟨d, opening, opens⟩ := List.exists_cons_of_ne_nil (opening_ne_nil member)
            have head := congrArg (·[0]?) shape
            simp only [List.getElem?_drop, Nat.add_zero, inText, opens, List.cons_append,
              List.getElem?_cons_zero, Option.some.injEq] at head
            subst head
            rw [isStringHead_of_opening member kind opens] at notHead
            cases notHead
        · exact (notBlanked c here.symm).elim

end TestAudit.Language
