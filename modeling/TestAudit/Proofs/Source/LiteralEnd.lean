import TestAudit.Proofs.Source.LiteralStop
import TestAudit.Proofs.Source.Masking

namespace TestAudit

/-!
# How literals end

A literal that does not go on to the end of its text ends with what closes it, or before
a line feed: a comment up to the end of the line always does the second, a comment
between markers always the first. So no word goes on across the end of a literal.
-/

namespace LiteralForm

/-- What ends the body of a literal that does not go on to the end of its text. -/
def Ends (form : LiteralForm) (body : Text) : Prop :=
  match form with
  | .lineComment _ => body[form.bodyLength body]? = some '\n'
  | .blockComment _ closing => closing <:+ body.take (form.bodyLength body)
  | .verbatim _ => ['\x22'] <:+ body.take (form.bodyLength body)
  | .quoted delimiter _ =>
      delimiter <:+ body.take (form.bodyLength body) ∨
        body[form.bodyLength body]? = some '\n'

theorem suffix_take_of_prefix_drop
    {closing body : Text}
    {index : Nat}
    (begins : closing <+: body.drop index) :
    closing <:+ body.take (index + closing.length) := by
  obtain ⟨rest, shape⟩ := begins
  rw [List.take_add, ← shape, List.take_left]
  exact List.suffix_append _ _

/-- A literal that does not go on to the end of its text is ended by what stands there. -/
theorem ends_of_bodyLength_lt
    {form : LiteralForm}
    {body : Text}
    (goesOn : form.bodyLength body < body.length) :
    form.Ends body := by
  have stops : form.StopsAt (form.opening ++ body) 0 _ := stopsAt_of_shape (Nat.zero_le _) rfl
  generalize isStop : 0 + form.opening.length + form.bodyLength body = stop at stops
  cases stops with
  | unclosed =>
      rw [List.length_append] at isStop
      omega
  | @closed place _ least ends =>
      obtain ⟨index, isPlace⟩ := Nat.exists_eq_add_of_le least.1.1
      rw [Nat.zero_add] at isPlace isStop
      subst isPlace
      have character : (form.opening ++ body)[form.opening.length + index]? = body[index]? := by
        rw [List.getElem?_append_right (Nat.le_add_right _ _), Nat.add_sub_cancel_left]
      have behind : (form.opening ++ body).drop (form.opening.length + index) = body.drop index := by
        rw [← List.drop_drop, List.drop_left]
      cases ends with
      | lineFeed here =>
          have isEnd := Nat.add_left_cancel isStop
          rw [Ends, isEnd, ← character]
          exact here
      | marker closes =>
          have isEnd := Nat.add_left_cancel (isStop.trans (Nat.add_assoc _ _ _))
          rw [Ends, isEnd]
          exact suffix_take_of_prefix_drop (behind ▸ closes)
      | quote here =>
          have isEnd := Nat.add_left_cancel (isStop.trans (Nat.add_assoc _ _ _))
          obtain ⟨within, isQuote⟩ := List.getElem?_eq_some_iff.mp (character ▸ here)
          have closes : ['\x22'] <+: body.drop index := by
            rw [List.drop_eq_getElem_cons within, isQuote]
            exact List.prefix_append ['\x22'] _
          rw [Ends, isEnd]
          exact suffix_take_of_prefix_drop closes
      | delimiter closes =>
          have isEnd := Nat.add_left_cancel (isStop.trans (Nat.add_assoc _ _ _))
          rw [Ends, isEnd]
          exact Or.inl (suffix_take_of_prefix_drop (behind ▸ closes))
      | brokenLine here =>
          have isEnd := Nat.add_left_cancel isStop
          rw [Ends, isEnd, ← character]
          exact Or.inr here

end LiteralForm

namespace Language

variable {language : Language} {text : Text} {form : LiteralForm} {first length : Nat}

theorem getElem?_behind_opening
    {body : Text}
    (shape : text.drop first = form.opening ++ body)
    (index : Nat) :
    text[first + (form.opening.length + index)]? = body[index]? := by
  rw [← List.getElem?_drop, shape, List.getElem?_append_right (Nat.le_add_right _ _),
    Nat.add_sub_cancel_left]

/-- What closes the body of a literal stands at the end of the literal. -/
theorem getElem?_of_suffix_body
    {body closing : Text}
    {last : Char}
    (shape : text.drop first = form.opening ++ body)
    (isLength : length = form.opening.length + form.bodyLength body)
    (closes : closing ++ [last] <:+ body.take (form.bodyLength body)) :
    text[first + length - 1]? = some last := by
  obtain ⟨inner, isTaken⟩ := closes
  have count := congrArg List.length isTaken
  simp only [List.length_append, List.length_singleton, List.length_take,
    Nat.min_eq_left (form.bodyLength_le body)] at count
  have inBody : body[form.bodyLength body - 1]? = some last := by
    rw [← List.getElem?_take_of_lt (show form.bodyLength body - 1 < form.bodyLength body by omega),
      ← isTaken, ← List.append_assoc, List.getElem?_append_right (by simp; omega)]
    simp [← count]
  have place : first + length - 1 = first + (form.opening.length + (form.bodyLength body - 1)) := by
    omega
  rw [place, getElem?_behind_opening shape]
  exact inBody

/-- A literal behind which the text goes on ends as its form does. -/
theorem exists_body_of_literal?
    (found : language.literal? (text.drop first) = some (form, length))
    (goesOn : first + length < text.length) :
    ∃ body,
      text.drop first = form.opening ++ body ∧
        length = form.opening.length + form.bodyLength body ∧
        form.Ends body := by
  obtain ⟨_, measures⟩ := literal?_eq_some found
  obtain ⟨body, shape, isLength⟩ := LiteralForm.length?_eq_some_iff.mp measures
  refine ⟨body, shape, isLength, LiteralForm.ends_of_bodyLength_lt ?_⟩
  have lengths := congrArg List.length shape
  simp only [List.length_drop, List.length_append] at lengths
  omega

/-- A comment between markers ends with its closing marker. -/
theorem getElem?_last_of_blockComment
    {opening closing : Text}
    (found : language.literal? (text.drop first) = some (.blockComment opening closing, length))
    (goesOn : first + length < text.length) :
    text[first + length - 1]? = some '/' := by
  obtain rfl : closing = ['*'] ++ ['/'] := by
    have member := (literal?_eq_some found).1
    cases language <;> simp_all [literalForms]
  obtain ⟨body, shape, isLength, ends⟩ := exists_body_of_literal? found goesOn
  exact getElem?_of_suffix_body shape isLength ends

theorem exists_last_of_delimiter
    {delimiter : Text}
    {multiline : Bool}
    (member : .quoted delimiter multiline ∈ language.literalForms) :
    ∃ front last, delimiter = front ++ [last] ∧ Text.isWord last = false := by
  have quotes :
      (language.literalForms.all fun
        | .quoted delimiter _ => delimiter.getLast?.any (!Text.isWord ·)
        | _ => true) = true := by
    cases language <;> decide
  have quote := List.all_eq_true.mp quotes _ member
  rcases List.eq_nil_or_concat delimiter with rfl | ⟨front, last, rfl⟩
  · cases quote
  · exact ⟨front, last, List.concat_eq_append, by simpa using quote⟩

/-- No literal ends with a word character, save before a line feed. -/
theorem isWord_last_of_literal?
    (found : language.literal? (text.drop first) = some (form, length))
    (goesOn : first + length < text.length)
    (inLine : text[first + length]? ≠ some '\n') :
    ∃ c, text[first + length - 1]? = some c ∧ Text.isWord c = false := by
  obtain ⟨body, shape, isLength, ends⟩ := exists_body_of_literal? found goesOn
  rw [isLength, getElem?_behind_opening shape] at inLine
  have member := (literal?_eq_some found).1
  cases form with
  | lineComment opening => exact (inLine ends).elim
  | blockComment opening closing =>
      exact ⟨'/', getElem?_last_of_blockComment found goesOn, by decide⟩
  | verbatim opening =>
      have closes : [] ++ ['\x22'] <:+ body.take (LiteralForm.verbatimLength body) := ends
      exact ⟨'\x22', getElem?_of_suffix_body shape isLength closes, by decide⟩
  | quoted delimiter multiline =>
      rcases ends with closes | endsLine
      · obtain ⟨front, last, rfl, notWord⟩ := exists_last_of_delimiter member
        exact ⟨last, getElem?_of_suffix_body shape isLength closes, notWord⟩
      · exact (inLine endsLine).elim

end Language

end TestAudit
