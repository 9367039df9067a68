import TestAudit.Proofs.Finding.Scan
import TestAudit.Proofs.Source.CallSpan
import TestAudit.Proofs.Source.Receiver

namespace TestAudit.Scan

/-!
# Calls with a plain argument

An argument without parentheses and without anything that begins a literal leaves nothing
to chance: its call is the only one of the text, closed by the parenthesis behind the
argument, and its span is as much of it as the window allows. No receiver in it is
read-only, because a snapshot call has parentheses.
-/

/-- A script call with an argument, and nothing else. -/
def plainCall (argument : Text) : Text :=
  ".evaluate(".toList ++ (argument ++ ")".toList)

/-- An argument of code without parentheses. -/
def IsPlain (argument : Text) : Prop :=
  ∀ c ∈ argument, c ∉ Language.literalHeads .script ∧ c ≠ '(' ∧ c ≠ ')'

/-- The span of a plain call. -/
def plainSpan (argument : Text) (window : Nat) : CallSpan :=
  if argument.length < window then
    ⟨0, 10, 10 + argument.length, false⟩
  else
    ⟨0, 10, 10 + window, true⟩

variable {argument padding write rest : Text}

theorem IsPlain.of_all
    (plain :
      argument.all
        (fun c => !(Language.literalHeads .script).contains c && c != '(' && c != ')') = true) :
    IsPlain argument := by
  intro c member
  have here := List.all_eq_true.mp plain c member
  simpa [and_assoc] using here

/-- White space before plain code leaves it plain. -/
theorem IsPlain.of_padding
    (blank : ∀ c ∈ padding, Text.isBlank c = true)
    (plain : IsPlain argument) :
    IsPlain (padding ++ argument) := by
  intro c member
  rcases List.mem_append.mp member with inPadding | inArgument
  · have isBlank := blank c inPadding
    refine ⟨Language.not_mem_literalHeads_of_isBlank isBlank, ?_, ?_⟩
    · rintro rfl
      cases isBlank
    · rintro rfl
      cases isBlank
  · exact plain c inArgument

/-! ## The text of a plain call -/

theorem drop_plainCall
    (argument : Text) :
    (plainCall argument).drop 10 = argument ++ ")".toList := by
  unfold plainCall
  exact List.drop_left' (by decide)

theorem length_plainCall
    (argument : Text) :
    (plainCall argument).length = 11 + argument.length := by
  have opening : ".evaluate(".toList.length = 10 := by decide
  have closing : ")".toList.length = 1 := by decide
  unfold plainCall
  rw [List.length_append, List.length_append, opening, closing]
  omega

theorem getElem?_plainCall
    {index : Nat}
    (inside : index < argument.length) :
    (plainCall argument)[10 + index]? = argument[index]? := by
  rw [← List.getElem?_drop, drop_plainCall, List.getElem?_append_left inside]

theorem not_mem_literalHeads_of_mem_plainCall
    (plain : IsPlain argument) :
    ∀ c ∈ plainCall argument, c ∉ Language.literalHeads .script := by
  have isCode :
      (".evaluate(".toList ++ ")".toList).all
        (!(Language.literalHeads .script).contains ·) = true := by
    decide
  have aroundArgument :
      ∀ c ∈ ".evaluate(".toList ++ ")".toList, c ∉ Language.literalHeads .script := by
    intro c member
    simpa using List.all_eq_true.mp isCode c member
  intro c member
  unfold plainCall at member
  rcases List.mem_append.mp member with inOpening | inRest
  · exact aroundArgument c (List.mem_append_left _ inOpening)
  · rcases List.mem_append.mp inRest with inArgument | isClosing
    · exact (plain c inArgument).1
    · exact aroundArgument c (List.mem_append_right _ isClosing)

/-! ## Its call -/

theorem opensCall_plainCall
    (argument : Text) :
    Language.OpensCall .script (plainCall argument) 0 10 := by
  have ends
      (rest : Text) :
      (Pattern.inOrder
          ([.one (.exactly '.'), .many .blank, .anyText (Language.scriptCalls .script)] ++ [] ++
            [.many .blank, .one (.exactly '(')])).ends ⟨[], ".evaluate(".toList ++ rest⟩ =
        [⟨"(etaulave.".toList, rest⟩] := by
    cbv
  have opening : ".evaluate(".toList.length = 10 := by decide
  refine ⟨_, 10, rfl, ?_, rfl⟩
  unfold plainCall
  rw [Pattern.matchLength?, List.drop_zero, ends]
  simp only [List.head?_cons, Option.map_some, List.length_append, Option.some.injEq]
  omega

/-- The only parenthesis that opens is that of the call, and only one dot stands before it. -/
theorem eq_of_opensCall_plainCall
    (plain : IsPlain argument)
    {callStart start : Nat}
    (opens : Language.OpensCall .script (plainCall argument) callStart start) :
    callStart = 0 ∧ start = 10 := by
  have bounds := opens.bounds
  have inOpening
      {index : Nat}
      (inside : index < 10) :
      (plainCall argument)[index]? = ".evaluate(".toList[index]? :=
    List.getElem?_append_left inside
  have parenthesis := opens.getElem?_pred_start
  have beforeArgument : start - 1 < 10 := by
    apply Nat.lt_of_not_le
    intro behind
    obtain ⟨index, atIndex⟩ := Nat.exists_eq_add_of_le behind
    rw [atIndex, ← List.getElem?_drop, drop_plainCall] at parenthesis
    rcases List.mem_append.mp (List.mem_of_getElem? parenthesis) with inArgument | isClosing
    · exact (plain _ inArgument).2.1 rfl
    · revert isClosing
      decide
  have onlyParenthesis : ∀ index < 10, ".evaluate(".toList[index]? = some '(' → index = 9 := by
    decide
  have onlyDot : ∀ index < 10, ".evaluate(".toList[index]? = some '.' → index = 0 := by
    decide
  rw [inOpening beforeArgument] at parenthesis
  have dot := opens.getElem?_callStart
  rw [inOpening (by omega)] at dot
  have := onlyParenthesis _ beforeArgument parenthesis
  exact ⟨onlyDot _ (by omega) dot, by omega⟩

/-- Everything in a plain call is code. -/
theorem codeFrom_plainCall
    (plain : IsPlain argument)
    {offset after : Nat}
    (behind : offset ≤ after)
    (within : after < 11 + argument.length) :
    Language.CodeFrom .script (plainCall argument) offset after := by
  refine .of_not_mem_literalHeads (not_mem_literalHeads_of_mem_plainCall plain) behind ?_
  rwa [length_plainCall]

theorem code_plainCall
    (plain : IsPlain argument) :
    Language.Code .script (plainCall argument) 0 :=
  codeFrom_plainCall plain (Nat.le_refl 0) (by omega)

theorem closes_plainCall
    (plain : IsPlain argument) :
    Language.Closes .script (plainCall argument) 1 10 (10 + argument.length) := by
  refine Language.closes_of_leaves (drop_plainCall argument)
    (.of_plain fun c member => (plain c member).2) ?_
  intro offset after before _
  exact codeFrom_plainCall plain after (by omega)

theorem reachesFar_plainSpan
    (plain : IsPlain argument)
    (window : Nat) :
    Language.ReachesFar .script (plainCall argument) window (plainSpan argument window) := by
  have closes := closes_plainCall plain
  unfold plainSpan
  split
  · exact .closed closes (by omega)
  · have cutOff : 10 + window = min (plainCall argument).length (10 + window) := by
      rw [length_plainCall]
      omega
    rw [cutOff]
    apply Language.ReachesFar.cut
    intro close closesThere
    rw [closesThere.unique closes]
    omega

/-- A plain call has one span, which the window may cut off. -/
theorem callSpans_plainCall
    (plain : IsPlain argument)
    (window : Nat) :
    Language.callSpans .script (plainCall argument) window = [plainSpan argument window] := by
  have reaches := reachesFar_plainSpan plain window
  have begins : (plainSpan argument window).callStart = 0 ∧
      (plainSpan argument window).start = 10 := by
    unfold plainSpan
    split <;> exact ⟨rfl, rfl⟩
  have found :
      Language.FoundFrom .script (plainCall argument) window 0 [plainSpan argument window] := by
    refine .call ?_ ?_ ?_ reaches (.nothing ?_)
    · rw [begins.1]
      exact code_plainCall plain
    · rw [begins.1, begins.2]
      exact opensCall_plainCall argument
    · intro offset start _ _
      rw [begins.1]
      exact Nat.zero_le offset
    · intro offset start code opens
      have after := code.le
      have bounds := reaches.bounds (by rw [begins.2, length_plainCall]; omega)
      rw [(eq_of_opensCall_plainCall plain opens).1] at after
      omega
  exact (Language.foundFrom_callSpans .script _ window).unique found

/-! ## Matches behind a padding -/

/-- White space before a match moves it, and hides nothing. -/
theorem occurrences_plainCall
    {rule : Rule}
    {matched : Text}
    (blank : ∀ c ∈ padding, Text.isBlank c = true)
    (finds :
      ∀ offset before,
        rule.pattern.occurrencesFrom 0 offset before write = [⟨offset + 1, matched⟩]) :
    rule.pattern.occurrences
        (Region.excerpt
          ⟨plainCall (padding ++ (write ++ rest)), 10, 10 + (padding ++ write).length⟩) =
      [⟨11 + padding.length, matched⟩] := by
  have chars :
      Region.chars
          ⟨plainCall (padding ++ (write ++ rest)), 10, 10 + (padding ++ write).length⟩ =
        padding ++ write := by
    unfold Region.chars
    rw [drop_plainCall, ← List.append_assoc, List.append_assoc _ rest, Nat.add_sub_cancel_left]
    exact List.take_left
  simp only [Pattern.occurrences, Region.excerpt, chars]
  rw [Pattern.occurrencesFrom_append_of_isBlank rule.pattern_isSolid blank, finds]
  rw [show 10 + padding.length + 1 = 11 + padding.length by omega]

/-- No receiver in a plain argument is read-only. -/
theorem not_isReadOnly_plainCall
    (plain : IsPlain argument)
    {offset : Nat}
    (after : 10 ≤ offset)
    (before : offset ≤ 10 + argument.length) :
    Receiver.isReadOnly (Receiver.chain (plainCall argument) offset 10) = false := by
  refine Bool.eq_false_iff.mpr fun readOnly => ?_
  obtain ⟨front, name, inside, access, counted⟩ :=
    Receiver.exists_countedSnapshot (opensCall_plainCall argument).getElem?_pred_start
      (by decide) after readOnly
  have inReach : '(' ∈ ((plainCall argument).take offset).drop 10 := by
    rw [counted.shape]
    simp
  rw [List.drop_take, drop_plainCall, List.take_append_of_le_length (by omega)] at inReach
  exact (plain _ (List.mem_of_mem_take inReach)).2.1 rfl

/-- A match behind a padding offends. -/
theorem offendsIn_plainCall
    {rule : Rule}
    {matched : Text}
    (blank : ∀ c ∈ padding, Text.isBlank c = true)
    (plain : IsPlain (padding ++ (write ++ rest)))
    (finds :
      ∀ offset before,
        rule.pattern.occurrencesFrom 0 offset before write = [⟨offset + 1, matched⟩]) :
    OffendsIn rule
      ⟨plainCall (padding ++ (write ++ rest)), 10, 10 + (padding ++ write).length⟩
      (11 + padding.length) := by
  have occurs :
      (⟨11 + padding.length, matched⟩ : Occurrence) ∈
        rule.pattern.occurrences
          (Region.excerpt
            ⟨plainCall (padding ++ (write ++ rest)), 10, 10 + (padding ++ write).length⟩) := by
    rw [occurrences_plainCall blank finds]
    exact List.mem_singleton_self _
  have before := (Pattern.offset_of_mem_occurrences occurs).2.1
  refine ⟨_, occurs, rfl, not_isReadOnly_plainCall plain ?_ ?_⟩
  · omega
  · simp only [List.length_append] at before ⊢
    omega

end TestAudit.Scan
