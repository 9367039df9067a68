import TestAudit.Proofs.Source.LiteralEnd
import TestAudit.Proofs.Text.Write

namespace TestAudit.Language

/-!
# Writes in a text and in its masked text

One equals sign may assign to different names in a text and in its masked text, since
masking lays bare what stands in front of a comment. Then a line comment ends in front of
the sign: a string would leave its opening in the masked text, and the end of a comment
between markers would stand between the name and the sign in the text.
-/

/-- A line comment of a text ends in front of an offset, with padding in between. -/
def FollowsLineComment (language : Language) (text : Text) (sign : Nat) : Prop :=
  ∃ first opening length,
    language.Boundary text first ∧
      language.literal? (text.drop first) = some (.lineComment opening, length) ∧
      first + length ≤ sign ∧
      ∀ offset,
        first + length ≤ offset →
        offset < sign →
        ∃ c, text[offset]? = some c ∧ Text.IsPadding c

variable {language : Language} {text : Text}

theorem not_isStringHead_of_isWord
    {c : Char}
    (isWord : Text.isWord c = true) :
    isStringHead c = false := by
  refine Bool.eq_false_iff.mpr fun head => ?_
  simp only [isStringHead, isQuote, Bool.or_eq_true, beq_iff_eq] at head
  rcases head with ((rfl | rfl) | rfl) | rfl <;> exact absurd isWord (by decide)

/-- No literal begins with padding. -/
theorem not_mem_literalHeads_of_isPadding
    {c : Char}
    (padding : Text.IsPadding c) :
    c ∉ language.literalHeads := by
  rcases padding with blank | rfl | rfl
  · exact not_mem_literalHeads_of_isBlank blank
  · cases language <;> decide
  · cases language <;> decide

/-- A word character or a bracket left of a text is code of it. -/
theorem code_of_endsTarget
    {offset : Nat}
    {c : Char}
    (here : (language.mask text)[offset]? = some c)
    (endsTarget : Text.isWord c = true ∨ c = ']') :
    language.Code text offset := by
  rcases endsTarget with isWord | rfl
  · exact code_of_getElem?_mask here (Text.isBlank_of_isWord isWord)
      (not_isStringHead_of_isWord isWord)
  · exact code_of_getElem?_mask here (by decide) (by decide)

theorem code_of_equals
    {offset : Nat}
    (here : (language.mask text)[offset]? = some '=') :
    language.Code text offset :=
  code_of_getElem?_mask here (by decide) (by decide)

/-- Where the masked text begins a word, no word goes on in the text. -/
theorem isWord_before_of_mask
    {offset : Nat}
    {before c : Char}
    (blanked : (language.mask text)[offset]? = some before)
    (notWord : Text.isWord before = false)
    (next : (language.mask text)[offset + 1]? = some c)
    (isWord : Text.isWord c = true) :
    ∃ d, text[offset]? = some d ∧ Text.isWord d = false := by
  have within : offset < text.length := by
    have inMask := (List.getElem?_eq_some_iff.mp blanked).1
    simpa using inMask
  rcases @code_or_inLiteral language text offset within with
    code | ⟨first, length, boundary, literal, after, inside⟩
  · rw [getElem?_mask_of_code code] at blanked
    exact ⟨before, blanked, notWord⟩
  · -- The word is code, so the literal ends just in front of it.
    have nextCode : language.Code text (offset + 1) := code_of_endsTarget next (Or.inl isWord)
    have isEnd : first + length = offset + 1 := by
      apply Nat.le_antisymm
      · apply Nat.le_of_not_lt
        intro goesOn
        exact InLiteral.not_code ⟨first, length, boundary, literal, by omega, goesOn⟩ nextCode
      · exact inside
    have nextInText : text[offset + 1]? = some c :=
      getElem?_of_getElem?_mask next (Text.isBlank_of_isWord isWord)
    obtain ⟨⟨form, _⟩, found, rfl⟩ := Option.map_eq_some_iff.mp literal
    obtain ⟨d, last, lastNotWord⟩ :=
      isWord_last_of_literal? found (isEnd ▸ nextCode.within) (by
        rw [isEnd, nextInText]
        rintro ⟨⟩
        exact absurd isWord (by decide))
    rw [isEnd, Nat.add_sub_cancel] at last
    exact ⟨d, last, lastNotWord⟩

variable {edge sign : Nat} {name : Text}

/-- A write in the masked text is one in the text if nothing but padding was blanked in it. -/
theorem writesAt_of_mask
    (maskWrites : (language.mask text).WritesAt edge sign name)
    (padded :
      ∀ offset,
        edge + name.length < offset →
        offset < sign →
        ∃ c, text[offset]? = some c ∧ Text.IsPadding c) :
    text.WritesAt edge sign name where
  atEdge := by
    obtain ⟨c, here, notWord, isBracket⟩ := maskWrites.atEdge
    rcases name with _ | ⟨head, rest⟩
    · obtain rfl := isBracket rfl
      exact ⟨']', getElem?_of_getElem?_mask here (by decide), notWord, isBracket⟩
    · have next := maskWrites.spells 0 (Nat.succ_pos _)
      obtain ⟨d, inText, notWordInText⟩ :=
        isWord_before_of_mask here notWord next (maskWrites.allWord head List.mem_cons_self)
      exact ⟨d, inText, notWordInText, by simp⟩
  spells := by
    intro index within
    have spelled := maskWrites.spells index within
    rw [List.getElem?_eq_getElem within] at spelled ⊢
    have isWord := maskWrites.allWord _ (List.getElem_mem within)
    exact getElem?_of_getElem?_mask spelled (Text.isBlank_of_isWord isWord)
  allWord := maskWrites.allWord
  padded := padded
  precedes := maskWrites.precedes
  atSign := getElem?_of_getElem?_mask maskWrites.atSign (by decide)

/-- A literal whose first character is padding in the masked text is a comment. -/
theorem isComment_of_padding
    {first length : Nat}
    {form : LiteralForm}
    {c : Char}
    (boundary : language.Boundary text first)
    (found : language.literal? (text.drop first) = some (form, length))
    (here : (language.mask text)[first]? = some c)
    (padding : Text.IsPadding c) :
    form.isComment = true := by
  have literal := literalLength?_of_literal? found
  have bounds := literalLength?_bounds literal
  refine Bool.not_eq_false _ |>.mp fun isString => ?_
  rw [(maskedExactly_mask language text).string first form length boundary found isString |>.1]
    at here
  obtain ⟨within, rfl⟩ := List.getElem?_eq_some_iff.mp here
  rw [List.drop_eq_getElem_cons within,
    literalLength?_of_not_mem_literalHeads (not_mem_literalHeads_of_isPadding padding)] at literal
  cases literal

/--
A character that can end a target and was blanked stands in a line comment, which ends in
front of the sign.
-/
theorem followsLineComment_of_target
    {last : Nat}
    {c : Char}
    (maskWrites : (language.mask text).WritesAt edge sign name)
    (behind : edge + name.length < last)
    (ahead : last < sign)
    (here : text[last]? = some c)
    (endsTarget : Text.isWord c = true ∨ c = ']')
    (padded :
      ∀ offset,
        last < offset →
        offset < sign →
        ∃ d, text[offset]? = some d ∧ Text.IsPadding d) :
    language.FollowsLineComment text sign := by
  have signCode : language.Code text sign := code_of_equals maskWrites.atSign
  obtain ⟨_, inMask, endsMaskTarget⟩ := maskWrites.exists_last
  have targetCode := code_of_endsTarget inMask endsMaskTarget
  obtain ⟨d, blanked, padding⟩ := maskWrites.padded last behind ahead
  rcases @code_or_inLiteral language text last (List.getElem?_eq_some_iff.mp here).1 with
    code | ⟨first, length, boundary, literal, after, inside⟩
  · rw [getElem?_mask_of_code code, here] at blanked
    cases blanked
    exact (padding.not_target endsTarget).elim
  · have startsBehind : edge + name.length < first := by
      apply Nat.lt_of_not_le
      intro covers
      exact InLiteral.not_code ⟨first, length, boundary, literal, covers, by omega⟩ targetCode
    have endsAhead : first + length ≤ sign := by
      apply Nat.le_of_not_lt
      intro covers
      exact InLiteral.not_code ⟨first, length, boundary, literal, by omega, covers⟩ signCode
    obtain ⟨⟨form, measured⟩, found, isLength⟩ := Option.map_eq_some_iff.mp literal
    obtain rfl : measured = length := isLength
    -- A string would have kept its opening, which is no padding, in the masked text.
    obtain ⟨_, head, headPadding⟩ := maskWrites.padded first startsBehind (by omega)
    have isComment := isComment_of_padding boundary found head headPadding
    cases form with
    | lineComment opening =>
        exact ⟨first, opening, measured, boundary, found, endsAhead,
          fun offset after before => padded offset (by omega) before⟩
    | blockComment opening closing =>
        -- Its closing marker would stand between the target and the sign.
        have slash :=
          getElem?_last_of_blockComment found (Nat.lt_of_le_of_lt endsAhead signCode.within)
        rcases Nat.eq_or_lt_of_le (Nat.le_sub_one_of_lt inside) with isLast | before
        · rw [← isLast, here] at slash
          cases slash
          exact absurd endsTarget (by decide)
        · obtain ⟨_, isSlash, slashPadding⟩ := padded _ before (by omega)
          rw [slash] at isSlash
          cases isSlash
          exact absurd slashPadding (by decide)
    | verbatim | quoted => cases isComment

/--
If an equals sign assigns to one name in a text and to another in the masked text, a line
comment ends in front of it.
-/
theorem followsLineComment_of_writesAt
    {maskEdge : Nat}
    {maskName : Text}
    (writes : text.WritesAt edge sign name)
    (maskWrites : (language.mask text).WritesAt maskEdge sign maskName)
    (differ : name ≠ maskName) :
    language.FollowsLineComment text sign := by
  -- The two targets end at one place, or masking has blanked the end of the one in the text.
  rcases Nat.lt_or_ge (maskEdge + maskName.length) (edge + name.length) with behind | notBehind
  · obtain ⟨c, here, endsTarget⟩ := writes.exists_last
    exact followsLineComment_of_target maskWrites behind writes.precedes here endsTarget
      writes.padded
  · have sameWrite : text.WritesAt maskEdge sign maskName :=
      writesAt_of_mask maskWrites fun offset after before =>
        writes.padded offset (by omega) before
    exact (differ (writes.unique sameWrite).2).elim

end TestAudit.Language
