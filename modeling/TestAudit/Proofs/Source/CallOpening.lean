import TestAudit.Proofs.Pattern.Match
import TestAudit.Proofs.Source.Token
import TestAudit.Source.CallSpan

namespace TestAudit.Language

/-!
# Openings of script-execution calls

The opening of a call is a dot, the name of a method and a parenthesis, with white
space between them; in C# a type argument may stand before the parenthesis. Save in
that argument no literal can begin in an opening.
-/

/-- The opening of a script-execution call begins at one offset and ends before another. -/
def OpensCall (language : Language) (text : Text) (callStart start : Nat) : Prop :=
  ∃ opening length,
    language.callOpening? = some opening ∧
      opening.matchLength? ⟨[], text.drop callStart⟩ = some length ∧
      start = callStart + length

variable {language : Language} {text : Text}

theorem callOpening?_isSolid
    {opening : Pattern}
    (has : language.callOpening? = some opening) :
    opening.isSolid = true := by
  cases language <;> simp only [callOpening?, Option.some.injEq, reduceCtorEq] at has
  all_goals subst has; decide

/-- The opening of a call stops where a literal may begin. -/
theorem callOpening?_stopsAt
    {opening : Pattern}
    {c : Char}
    (has : language.callOpening? = some opening)
    (notCsharp : language ≠ .csharp)
    (isHead : c ∈ language.literalHeads) :
    opening.stopsAt c = true := by
  have stops : language.literalHeads.all opening.stopsAt = true := by
    cases language <;> simp only [callOpening?, Option.some.injEq, reduceCtorEq] at has
    · subst has
      decide
    · contradiction
    · subst has
      decide
  exact List.all_eq_true.mp stops c isHead

namespace OpensCall

theorem bounds
    {callStart start : Nat}
    (opens : language.OpensCall text callStart start) :
    callStart < start ∧ start ≤ text.length := by
  obtain ⟨opening, length, has, found, rfl⟩ := opens
  have solid := callOpening?_isSolid has
  obtain ⟨positive, c, rest, shape, _⟩ := Pattern.matchLength?_of_isSolid solid found
  have within := Pattern.matchLength?_le found
  have inText := (Text.drop_eq_cons shape).1
  simp only [List.length_drop] at within
  omega

/-- Where an opening ends is determined by where it begins. -/
theorem unique
    {callStart left right : Nat}
    (first : language.OpensCall text callStart left)
    (second : language.OpensCall text callStart right) :
    left = right := by
  obtain ⟨opening, length, has, found, rfl⟩ := first
  obtain ⟨other, otherLength, hasOther, foundOther, rfl⟩ := second
  cases has.symm.trans hasOther
  cases found.symm.trans foundOther
  rfl

/-- An opening is a dot, a method name and a parenthesis, with white space between them. -/
theorem shape
    {callStart start : Nat}
    (opens : language.OpensCall text callStart start) :
    ∃ blanks name middle moreBlanks,
      text.drop callStart =
          '.' :: blanks ++ name ++ middle ++ moreBlanks ++ '(' :: text.drop start ∧
        start = callStart + ('.' :: blanks ++ name ++ middle ++ moreBlanks).length + 1 ∧
        (∀ c ∈ blanks ++ moreBlanks, Text.isBlank c = true) ∧
        name ∈ language.scriptCalls ∧
        (language ≠ .csharp → middle = []) := by
  obtain ⟨opening, length, has, found, rfl⟩ := opens
  obtain ⟨stop, member, lengthOf⟩ := Pattern.matchLength?_eq_some found
  have inOrder :
      ∃ middlePatterns,
        opening =
            .inOrder ([.one (.exactly '.'), .many .blank, .anyText language.scriptCalls] ++
              (middlePatterns ++ [.many .blank, .one (.exactly '(')])) ∧
          (language ≠ .csharp → middlePatterns = []) := by
    cases language <;> simp only [callOpening?, Option.some.injEq, reduceCtorEq] at has
    · exact ⟨[], has.symm, by simp⟩
    · exact ⟨[.many .blank, .optional typeArgument], has.symm, by simp⟩
    · exact ⟨[], has.symm, by simp⟩
  obtain ⟨middlePatterns, rfl, noMiddle⟩ := inOrder
  simp only [List.cons_append, List.nil_append] at member
  -- The match goes through the dot, blanks, the name, the middle, blanks and the parenthesis.
  obtain ⟨afterDot, toDot, member⟩ := Pattern.mem_ends_inOrder_cons member
  obtain ⟨afterBlanks, toBlanks, member⟩ := Pattern.mem_ends_inOrder_cons member
  obtain ⟨afterName, toName, member⟩ := Pattern.mem_ends_inOrder_cons member
  obtain ⟨afterMiddle, toMiddle, member⟩ := Pattern.mem_ends_inOrder_append member
  obtain ⟨beforeParen, toMoreBlanks, member⟩ := Pattern.mem_ends_inOrder_cons member
  obtain ⟨afterParen, toParen, member⟩ := Pattern.mem_ends_inOrder_cons member
  obtain rfl : stop = afterParen := List.mem_singleton.mp member
  obtain ⟨dot, isDot, takesDot⟩ := Pattern.taking_of_mem_ends_one toDot
  obtain ⟨blanks, areBlank, takesBlanks⟩ := Pattern.taking_of_mem_ends_many toBlanks
  obtain ⟨name, isName, takesName⟩ := Pattern.taking_of_mem_ends_anyText toName
  obtain ⟨middle, takesMiddle⟩ := Pattern.taking_of_mem_ends toMiddle
  obtain ⟨moreBlanks, moreAreBlank, takesMoreBlanks⟩ :=
    Pattern.taking_of_mem_ends_many toMoreBlanks
  obtain ⟨paren, isParen, takesParen⟩ := Pattern.taking_of_mem_ends_one toParen
  obtain rfl : '.' = dot := by simpa [CharSet.accepts] using isDot
  obtain rfl : '(' = paren := by simpa [CharSet.accepts] using isParen
  have takes :
      Place.Taking ⟨[], text.drop callStart⟩
        ('.' :: blanks ++ name ++ middle ++ moreBlanks ++ ['(']) stop :=
    ((((takesDot.trans takesBlanks).trans takesName).trans takesMiddle).trans
      takesMoreBlanks).trans takesParen
  have lengthIs := lengthOf _ takes
  have taken :
      text.drop callStart =
        '.' :: blanks ++ name ++ middle ++ moreBlanks ++ ['('] ++ stop.after :=
    takes.1
  have after : text.drop (callStart + length) = stop.after := by
    rw [← List.drop_drop, taken, lengthIs, List.drop_left]
  refine ⟨blanks, name, middle, moreBlanks, ?_, ?_, ?_, isName, ?_⟩
  · rw [after, taken, List.append_assoc _ ['('], List.singleton_append]
  · rw [lengthIs, List.length_append, List.length_singleton]
    omega
  · intro c isBlank
    rcases List.mem_append.mp isBlank with before | after
    · exact areBlank c before
    · exact moreAreBlank c after
  · intro notCsharp
    have none := noMiddle notCsharp
    subst none
    obtain rfl : afterMiddle = afterName := List.mem_singleton.mp toMiddle
    have empty := congrArg List.length takesMiddle.1
    simp only [List.length_append] at empty
    exact List.length_eq_zero_iff.mp (by omega)

theorem getElem?_callStart
    {callStart start : Nat}
    (opens : language.OpensCall text callStart start) :
    text[callStart]? = some '.' := by
  obtain ⟨blanks, name, middle, moreBlanks, shape, _⟩ := opens.shape
  have first := congrArg (·[0]?) shape
  simpa [List.getElem?_drop] using first

/-- No literal begins where a call is opened. -/
theorem plain
    {callStart start : Nat}
    (opens : language.OpensCall text callStart start) :
    language.literalLength? (text.drop callStart) = none := by
  have notHead : '.' ∉ language.literalHeads := by
    cases language <;> decide
  obtain ⟨blanks, name, middle, moreBlanks, shape, _⟩ := opens.shape
  rw [shape]
  exact literalLength?_of_not_mem_literalHeads notHead

theorem getElem?_pred_start
    {callStart start : Nat}
    (opens : language.OpensCall text callStart start) :
    text[start - 1]? = some '(' := by
  obtain ⟨blanks, name, middle, moreBlanks, shape, ends, _⟩ := opens.shape
  have last :=
    congrArg (·[('.' :: blanks ++ name ++ middle ++ moreBlanks).length]?) shape
  simp only [List.getElem?_drop, List.getElem?_append_right (Nat.le_refl _),
    Nat.sub_self, List.getElem?_cons_zero] at last
  rw [ends, Nat.add_sub_cancel]
  exact last

/-- Behind its dot, an opening without a type argument is blanks, a name and a parenthesis. -/
theorem isBlank_or_mem_of_inside
    {callStart start offset : Nat}
    {c : Char}
    (opens : language.OpensCall text callStart start)
    (untyped : language ≠ .csharp)
    (after : callStart < offset)
    (before : offset < start)
    (here : text[offset]? = some c) :
    Text.isBlank c = true ∨ c ∈ language.scriptCalls.flatten ∨ c = '(' := by
  obtain ⟨blanks, name, middle, moreBlanks, shape, ends, areBlank, isName, noMiddle⟩ :=
    opens.shape
  obtain rfl := noMiddle untyped
  rw [List.append_nil] at shape ends
  rw [List.append_cons] at shape
  have member : c ∈ blanks ++ name ++ moreBlanks ++ ['('] := by
    obtain ⟨index, rfl⟩ := Nat.exists_eq_add_of_lt after
    rw [Nat.add_assoc, ← List.getElem?_drop, shape, List.getElem?_append_left] at here
    · exact List.mem_of_getElem? here
    · rw [List.length_append, List.length_singleton]
      omega
  rcases List.mem_append.mp member with inFirst | isParen
  · rcases List.mem_append.mp inFirst with inFront | inMore
    · rcases List.mem_append.mp inFront with inBlanks | inName
      · exact Or.inl (areBlank c (List.mem_append_left _ inBlanks))
      · exact Or.inr (Or.inl (List.mem_flatten.mpr ⟨name, isName, inName⟩))
    · exact Or.inl (areBlank c (List.mem_append_right _ inMore))
  · exact Or.inr (Or.inr (List.mem_singleton.mp isParen))

/-- An opening without a type argument has one dot and no closing parenthesis. -/
theorem ne_of_inside
    {callStart start offset : Nat}
    {c : Char}
    (opens : language.OpensCall text callStart start)
    (untyped : language ≠ .csharp)
    (after : callStart < offset)
    (before : offset < start)
    (here : text[offset]? = some c) :
    c ≠ '.' ∧ c ≠ ')' := by
  have noMark :
      (language.scriptCalls.flatten.all fun c => c != '.' && c != ')') = true := by
    cases language <;> decide
  rcases opens.isBlank_or_mem_of_inside untyped after before here with
    blank | inName | rfl
  · constructor
    · rintro rfl
      cases blank
    · rintro rfl
      cases blank
  · simpa using List.all_eq_true.mp noMark c inName
  · decide

/--
No literal begins in an opening without a type argument, so reading goes over it
character by character.
-/
theorem codeFrom
    {callStart start offset : Nat}
    (opens : language.OpensCall text callStart start)
    (untyped : language ≠ .csharp)
    (after : callStart ≤ offset)
    (before : offset < start) :
    language.CodeFrom text callStart offset := by
  have marks : '.' ∉ language.literalHeads ∧ '(' ∉ language.literalHeads := by
    cases language <;> decide
  have nameMarks :
      (language.scriptCalls.flatten.all fun c => !language.literalHeads.contains c) = true := by
    cases language <;> decide
  have within := opens.bounds
  have plain :
      ∀ place,
        place < start →
        callStart ≤ place →
        place < text.length ∧ language.literalLength? (text.drop place) = none := by
    intro place placeBefore placeAfter
    have inText : place < text.length := by omega
    refine ⟨inText, ?_⟩
    rw [List.drop_eq_getElem_cons inText]
    apply literalLength?_of_not_mem_literalHeads
    have here : text[place]? = some text[place] := List.getElem?_eq_getElem inText
    rcases Nat.lt_or_eq_of_le placeAfter with inside | rfl
    · rcases opens.isBlank_or_mem_of_inside untyped inside placeBefore here with
        blank | inName | isParen
      · exact not_mem_literalHeads_of_isBlank blank
      · simpa using List.all_eq_true.mp nameMarks _ inName
      · rw [isParen]
        exact marks.2
    · rw [opens.getElem?_callStart] at here
      rw [← Option.some.inj here]
      exact marks.1
  refine ⟨.of_plain after ?_, (plain offset before after).1, (plain offset before after).2⟩
  intro place placeBefore placeAfter
  exact plain place (by omega) placeAfter

/-- Reading goes over an opening without a type argument. -/
theorem reads
    {callStart start : Nat}
    (opens : language.OpensCall text callStart start)
    (untyped : language ≠ .csharp) :
    language.Reads text callStart start := by
  have bounds := opens.bounds
  have last := opens.codeFrom untyped (Nat.le_sub_one_of_lt bounds.1) (by omega)
  have ends := last.tokenEnds
  rw [Nat.sub_add_cancel (by omega)] at ends
  exact last.reads.tail ends

end OpensCall

end TestAudit.Language
