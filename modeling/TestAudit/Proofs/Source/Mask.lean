import TestAudit.Proofs.Source.Token
import TestAudit.Proofs.Text.Segment
import TestAudit.Source.Mask

namespace TestAudit

/-!
# What masking keeps

Masking goes through the segments of a text and gives each one back at its own
length, so every offset keeps its meaning. At each offset stands the character of
the text or a blank in its place. What is left of a text behind a token is masked on
its own.
-/

namespace Language

/-! ## Masking token by token -/

/-- A literal on its own is still a literal of the same form. -/
theorem literal?_take
    {language : Language}
    {text : Text}
    {form : LiteralForm}
    {length : Nat}
    (found : language.literal? text = some (form, length)) :
    ∃ measured, language.literal? (text.take length) = some (form, measured) := by
  obtain ⟨earlier, candidate, later, forms, applied, passed⟩ :=
    List.findSome?_eq_some_iff.mp found
  obtain ⟨measured, measures, same⟩ := Option.map_eq_some_iff.mp applied
  cases same
  obtain ⟨body, shape, isLength⟩ := LiteralForm.length?_eq_some_iff.mp measures
  have onItsOwn :
      form.length? (text.take length) =
        some (form.opening.length + form.bodyLength (body.take (form.bodyLength body))) := by
    refine LiteralForm.length?_eq_some_iff.mpr ⟨_, ?_, rfl⟩
    rw [shape, isLength, List.take_length_add_append]
  refine ⟨_, List.findSome?_eq_some_iff.mpr
    ⟨earlier, form, later, forms, by rw [onItsOwn]; rfl, ?_⟩⟩
  -- An earlier form that began the literal on its own would begin the text.
  intro other isEarlier
  have notHere := passed other isEarlier
  rw [Option.map_eq_none_iff] at notHere ⊢
  cases begins : other.length? (text.take length) with
  | none => rfl
  | some count =>
      obtain ⟨rest, otherShape, _⟩ := LiteralForm.length?_eq_some_iff.mp begins
      have inText :
          other.length? text =
            some (other.opening.length + other.bodyLength (rest ++ text.drop length)) := by
        refine LiteralForm.length?_eq_some_iff.mpr ⟨_, ?_, rfl⟩
        rw [← List.append_assoc, ← otherShape, List.take_append_drop]
      rw [notHere] at inText
      cases inText

theorem mask_drop_of_plain
    {language : Language}
    {text : Text}
    {offset : Nat}
    {c : Char}
    (plain : language.literalLength? (text.drop offset) = none)
    (here : text[offset]? = some c) :
    language.mask (text.drop offset) = c :: language.mask (text.drop (offset + 1)) := by
  obtain ⟨within, rfl⟩ := List.getElem?_eq_some_iff.mp here
  rw [List.drop_eq_getElem_cons within] at plain ⊢
  exact Text.replaceTokens_of_plain (by rw [literalToken?, plain]; rfl)

theorem mask_drop_of_literal
    {language : Language}
    {text : Text}
    {offset length : Nat}
    (literal : language.literalLength? (text.drop offset) = some length) :
    language.mask (text.drop offset) =
      language.maskLiteral ((text.drop offset).take length) ++
        language.mask (text.drop (offset + length)) := by
  obtain ⟨positive, _⟩ := literalLength?_bounds literal
  obtain ⟨more, rfl⟩ := Nat.exists_eq_add_of_lt positive
  cases shape : text.drop offset with
  | nil => simp [shape] at literal
  | cons c rest =>
      obtain ⟨_, _, rfl⟩ := Text.drop_eq_cons shape
      rw [shape] at literal
      have token :
          language.literalToken? (c :: text.drop (offset + 1)) = some more := by
        rw [literalToken?, literal, Option.map_some]
        congr 1
        omega
      rw [mask, Text.replaceTokens_of_token token, List.drop_drop, Nat.zero_add,
        List.take_succ_cons, mask, Nat.add_assoc, Nat.add_comm 1 more]

/-! ## Masking character by character -/

theorem isBlank_blanked
    (c : Char) :
    Text.isBlank (blanked c) = true := by
  unfold blanked
  split <;> decide

/-- A character and what masking may put in its place. -/
def MaskedAs (c masked : Char) : Prop :=
  masked = c ∨ masked = blanked c

theorem forall₂_map_blanked
    (text : Text) :
    List.Forall₂ MaskedAs text (text.map blanked) := by
  rw [List.forall₂_map_right_iff]
  exact List.forall₂_same.mpr fun c _ => Or.inr rfl

theorem forall₂_maskString
    (literal : Text) :
    List.Forall₂ MaskedAs literal (maskString literal) := by
  unfold maskString
  split
  · exact .nil
  · next c rest =>
      split
      · next last found =>
          split
          · have shape : rest = rest.dropLast ++ [last] :=
              (List.dropLast_append_getLast? last found).symm
            have body :
                List.Forall₂ MaskedAs (rest.dropLast ++ [last])
                  (rest.dropLast.map blanked ++ [last]) :=
              List.rel_append (forall₂_map_blanked _) (.cons (Or.inl rfl) .nil)
            rw [← shape] at body
            exact .cons (Or.inl rfl) body
          · exact .cons (Or.inl rfl) (forall₂_map_blanked rest)
      · next isEmpty =>
          rw [List.getLast?_eq_none_iff.mp isEmpty]
          exact .cons (Or.inl rfl) .nil

theorem forall₂_maskLiteral
    (language : Language)
    (literal : Text) :
    List.Forall₂ MaskedAs literal (language.maskLiteral literal) := by
  unfold maskLiteral
  split
  · split
    · exact forall₂_map_blanked literal
    · exact forall₂_maskString literal
  · exact List.forall₂_same.mpr fun c _ => Or.inl rfl

/-- A text is masked character by character. -/
theorem forall₂_mask
    (language : Language)
    (text : Text) :
    List.Forall₂ MaskedAs text (language.mask text) :=
  Text.forall₂_segmentsFrom (fun _ => Or.inl rfl) language.forall₂_maskLiteral 0 text

@[simp] theorem length_mask
    (language : Language)
    (text : Text) :
    (language.mask text).length = text.length :=
  (language.forall₂_mask text).length_eq.symm

theorem maskedAs_of_getElem?
    {language : Language}
    {text : Text}
    {offset : Nat}
    {c masked : Char}
    (here : text[offset]? = some c)
    (inMask : (language.mask text)[offset]? = some masked) :
    MaskedAs c masked := by
  obtain ⟨within, rfl⟩ := List.getElem?_eq_some_iff.mp here
  obtain ⟨maskWithin, rfl⟩ := List.getElem?_eq_some_iff.mp inMask
  exact (List.forall₂_iff_get.mp (language.forall₂_mask text)).2 offset within maskWithin

/-- A character that is not blank in a masked text stands at the same offset of the text. -/
theorem getElem?_of_getElem?_mask
    {language : Language}
    {text : Text}
    {offset : Nat}
    {c : Char}
    (here : (language.mask text)[offset]? = some c)
    (notBlank : Text.isBlank c = false) :
    text[offset]? = some c := by
  have within : offset < text.length := by
    have := (List.getElem?_eq_some_iff.mp here).1
    simpa using this
  have inText := List.getElem?_eq_getElem within
  rw [inText]
  rcases maskedAs_of_getElem? inText here with same | isBlanked
  · rw [same]
  · rw [isBlanked, isBlank_blanked] at notBlank
    cases notBlank

theorem blanked_eq_lineFeed_iff
    (c : Char) :
    blanked c = '\n' ↔ c = '\n' := by
  unfold blanked
  split <;> simp_all

/-- A masked text has its line feeds where the text has them. -/
theorem getElem?_mask_eq_lineFeed_iff
    (language : Language)
    (text : Text)
    (offset : Nat) :
    (language.mask text)[offset]? = some '\n' ↔ text[offset]? = some '\n' := by
  by_cases within : offset < text.length
  · have here := List.getElem?_eq_getElem within
    have inMask :=
      List.getElem?_eq_getElem (show offset < (language.mask text).length by simpa using within)
    have masked := maskedAs_of_getElem? here inMask
    rw [here, inMask, Option.some.injEq, Option.some.injEq]
    rcases masked with same | isBlanked
    · rw [same]
    · rw [isBlanked, blanked_eq_lineFeed_iff]
  · rw [List.getElem?_eq_none (by simpa using within), List.getElem?_eq_none (by omega)]

end Language

end TestAudit
