import TestAudit.Proofs.Finding.PlainCall
import TestAudit.Proofs.Source.SpanAgreement

namespace TestAudit.Scan

/-!
# Findings in closed calls

A call is closed when its opening is in code and its parenthesis is closed, however far
behind. The window cuts every call that is longer, closed or not, and what stands behind
the cut is not searched. A closed call is searched as a whole unless it is longer than the
window, begins in another span, or stands behind a span that was cut off within a token.
-/

/-- A call whose opening is code, with the parenthesis that closes it. -/
structure ClosedCall
    (language : Language) (text : Text) (callStart start close : Nat) : Prop where
  code : language.Code text callStart
  opens : language.OpensCall text callStart start
  closes : language.Closes text 1 start close

/-- Every critical offence in the arguments of a closed call is reported. -/
def ClosedCallsReported (label text : Text) (language : Language) : Prop :=
  ∀ callStart start close,
    ClosedCall language text callStart start close →
    ∀ rule ∈ language.rules,
      rule.severity = .critical →
      rule.scope = .call →
      ∀ offset,
        OffendsIn rule ⟨text, start, close⟩ offset →
        ∃ violation ∈ (scan label text (some language)).value,
          violation.line = lineNumber text offset ∧ violation.id = rule.id

/-- A closed call begins in another span, which holds all of it when that span is whole. -/
def Covered
    (language : Language) (text : Text) (window callStart close : Nat) : Prop :=
  ∃ span ∈ language.callSpans text window,
    span.callStart < callStart ∧
      callStart < span.stop ∧
      (language ≠ .csharp →
        language.Boundary text span.callStart →
        span.truncated = false →
        span.start ≤ callStart ∧ close < span.stop)

/-- An offset is not read as code behind a span that stops within a token. -/
def Misread (language : Language) (text : Text) (window offset : Nat) : Prop :=
  ∃ span ∈ language.callSpans text window,
    ¬ language.Boundary text span.stop ∧
      span.stop ≤ offset ∧
      ¬ language.CodeFrom text span.stop offset

variable {language : Language} {label text : Text}

/-- A rule about calls is reported on a line just when it offends there in some span. -/
theorem exists_mem_scan_iff_of_call
    {rule : Rule}
    (isRule : rule ∈ language.rules)
    (aboutCalls : rule.scope = .call)
    (offset : Nat) :
    (∃ violation ∈ (scan label text (some language)).value,
        violation.line = lineNumber text offset ∧ violation.id = rule.id) ↔
      ∃ span ∈ language.callSpans text CallSpan.defaultWindow,
        ∃ other,
          OffendsIn rule (span.region text) other ∧
            lineNumber text other = lineNumber text offset := by
  constructor
  · intro reported
    obtain ⟨found, other, ⟨isFound, region, isRegion, offends⟩, sameLine, sameId⟩ :=
      exists_mem_violationsOf_iff.mp reported
    obtain rfl : rule = found := Rule.eq_of_id_eq isRule isFound sameId
    simp only [regionsFor, aboutCalls, List.mem_map] at isRegion
    obtain ⟨span, member, rfl⟩ := isRegion
    refine ⟨span, member, other, offends, ?_⟩
    simp only [lineNumber] at sameLine ⊢
    omega
  · rintro ⟨span, member, other, offends, sameLine⟩
    rw [← sameLine]
    exact exists_mem_scan_of_offends label
      ⟨isRule, span.region text, region_mem_regionsFor rule member, offends⟩

/-- A span at a closed call is the whole of it, or is cut off at the window. -/
theorem whole_or_cut_of_mem
    {callStart start close window : Nat}
    (call : ClosedCall language text callStart start close)
    {span : CallSpan}
    (member : span ∈ language.callSpans text window)
    (same : span.callStart = callStart) :
    span = ⟨callStart, start, close, false⟩ ∨
      start + window ≤ close ∧ span = ⟨callStart, start, start + window, true⟩ := by
  obtain ⟨opens, reaches⟩ := (language.foundFrom_callSpans text window).of_mem member
  subst same
  have sameStart : span.start = start := opens.unique call.opens
  cases reaches with
  | closed closes near =>
      simp only at sameStart
      subst sameStart
      left
      rw [closes.unique call.closes]
  | cut far =>
      simp only at sameStart
      subst sameStart
      have beyond := far close call.closes
      have within := call.closes.codeFrom.within
      right
      refine ⟨beyond, ?_⟩
      rw [Nat.min_eq_right (by omega)]

/-- A closed call that begins in a whole span ends in it, if no type argument stands before. -/
theorem close_lt_stop_of_covered
    {callStart start close window : Nat}
    (call : ClosedCall language text callStart start close)
    {span : CallSpan}
    (member : span ∈ language.callSpans text window)
    (begins : span.callStart < callStart)
    (ends : callStart < span.stop)
    (untyped : language ≠ .csharp)
    (between : language.Boundary text span.callStart)
    (whole : span.truncated = false) :
    span.start ≤ callStart ∧ close < span.stop := by
  obtain ⟨opens, reaches⟩ := (language.foundFrom_callSpans text window).of_mem member
  have closes := (reaches.closes whole).1
  have bounds := call.opens.bounds
  have behind : span.start ≤ callStart := by
    apply Nat.le_of_not_lt
    intro inside
    exact (opens.ne_of_inside untyped begins inside call.opens.getElem?_callStart).1 rfl
  have toArguments : language.Boundary text span.start :=
    between.trans (opens.reads untyped)
  have code : language.CodeFrom text span.start callStart :=
    (Language.CodeFrom.iff_of_reads toArguments behind).mpr call.code
  have parenthesis : language.CodeFrom text callStart (start - 1) :=
    call.opens.codeFrom untyped (by omega) (by omega)
  have before : start - 1 < span.stop := by
    apply Nat.lt_of_not_le
    intro inside
    exact (call.opens.ne_of_inside untyped ends (by omega) closes.getElem?_close).2 rfl
  obtain ⟨nested, toNested, insideSpan⟩ :=
    closes.exists_nested Nat.one_pos
      ⟨code.reads.trans parenthesis.reads, parenthesis.within, parenthesis.plain⟩
      before call.opens.getElem?_pred_start
  rw [Nat.sub_add_cancel (by omega)] at toNested
  obtain rfl : nested = close := toNested.unique call.closes
  exact ⟨behind, insideSpan⟩

/--
A closed call is returned whole, or it is longer than the window and cut off, or it
begins within another span, or it is misread behind one that stops within a token.
-/
theorem closedCall_cases
    {callStart start close window : Nat}
    (call : ClosedCall language text callStart start close) :
    ⟨callStart, start, close, false⟩ ∈ language.callSpans text window ∨
      (start + window ≤ close ∧
        ⟨callStart, start, start + window, true⟩ ∈ language.callSpans text window) ∨
      Covered language text window callStart close ∨
      Misread language text window callStart := by
  rcases Language.exists_covering_or_misread call.code call.opens with
    ⟨span, member, begins, ends⟩ | ⟨span, member, notBoundary, passed, unread, _⟩
  · rcases Nat.lt_or_eq_of_le begins with before | same
    · exact Or.inr (Or.inr (Or.inl
        ⟨span, member, before, ends, close_lt_stop_of_covered call member before ends⟩))
    · rcases whole_or_cut_of_mem call member same with rfl | ⟨beyond, rfl⟩
      · exact Or.inl member
      · exact Or.inr (Or.inl ⟨beyond, member⟩)
  · exact Or.inr (Or.inr (Or.inr ⟨span, member, notBoundary, passed, unread⟩))

/--
Critical findings in closed calls are reported for a text exactly when each of them in a
call that is not returned whole is found again, on its line, in some span. A call that is
not returned whole is too long, begins in another span, or is misread behind one.
-/
theorem closedCallsReported_iff
    (label text : Text)
    (language : Language) :
    (ClosedCallsReported label text language ↔
      ∀ callStart start close,
        ClosedCall language text callStart start close →
        ⟨callStart, start, close, false⟩ ∉
          language.callSpans text CallSpan.defaultWindow →
        ∀ rule ∈ language.rules,
          rule.severity = .critical →
          rule.scope = .call →
          ∀ offset,
            OffendsIn rule ⟨text, start, close⟩ offset →
            ∃ span ∈ language.callSpans text CallSpan.defaultWindow,
              ∃ other,
                OffendsIn rule (span.region text) other ∧
                  lineNumber text other = lineNumber text offset) ∧
      ∀ callStart start close,
        ClosedCall language text callStart start close →
        ⟨callStart, start, close, false⟩ ∈
            language.callSpans text CallSpan.defaultWindow ∨
          (start + CallSpan.defaultWindow ≤ close ∧
            ⟨callStart, start, start + CallSpan.defaultWindow, true⟩ ∈
              language.callSpans text CallSpan.defaultWindow) ∨
          Covered language text CallSpan.defaultWindow callStart close ∨
          Misread language text CallSpan.defaultWindow callStart := by
  refine ⟨⟨?_, ?_⟩, fun _ _ _ => closedCall_cases⟩
  · intro reported callStart start close call _ rule isRule critical aboutCalls offset offends
    exact (exists_mem_scan_iff_of_call isRule aboutCalls offset).mp
      (reported callStart start close call rule isRule critical aboutCalls offset offends)
  · intro found callStart start close call rule isRule critical aboutCalls offset offends
    rw [exists_mem_scan_iff_of_call isRule aboutCalls offset]
    by_cases whole :
        ⟨callStart, start, close, false⟩ ∈ language.callSpans text CallSpan.defaultWindow
    · exact ⟨_, whole, offset, offends, rfl⟩
    · exact found callStart start close call whole rule isRule critical aboutCalls offset offends

/-! ## A call with a long argument -/

/-- A call whose argument is a write to a hidden property behind a padding. -/
def paddedCall (padding : Text) : Text :=
  ".evaluate(".toList ++ padding ++ "a.hidden=1)".toList

section PaddedCall

variable {padding : Text}

theorem paddedCall_eq_plainCall
    (padding : Text) :
    paddedCall padding = plainCall (padding ++ "a.hidden=1".toList) := by
  unfold paddedCall plainCall
  rw [List.append_assoc, List.append_assoc]
  rfl

theorem isPlain_padded
    (blank : ∀ c ∈ padding, Text.isBlank c = true) :
    IsPlain (padding ++ "a.hidden=1".toList) :=
  .of_padding blank (.of_all (by decide))

theorem closedCall_paddedCall
    (blank : ∀ c ∈ padding, Text.isBlank c = true) :
    ClosedCall .script (paddedCall padding) 0 10
      (10 + (padding ++ "a.hidden=1".toList).length) := by
  have plain := isPlain_padded blank
  rw [paddedCall_eq_plainCall]
  exact ⟨code_plainCall plain, opensCall_plainCall _, closes_plainCall plain⟩

/-- The write in a padded call offends. -/
theorem offendsIn_paddedCall
    (blank : ∀ c ∈ padding, Text.isBlank c = true) :
    OffendsIn ⟨.script, .hidden⟩
      ⟨paddedCall padding, 10, 10 + (padding ++ "a.hidden=1".toList).length⟩
      (11 + padding.length) := by
  have write
      (offset : Nat)
      (before : Text) :
      (Rule.pattern ⟨.script, .hidden⟩).occurrencesFrom 0 offset before "a.hidden=1".toList =
        [⟨offset + 1, ".hidden="⟩] := by
    cbv
  have plain : IsPlain (padding ++ ("a.hidden=1".toList ++ [])) := by
    rw [List.append_nil]
    exact isPlain_padded blank
  have offends := offendsIn_plainCall blank plain write
  rw [List.append_nil] at offends
  rwa [paddedCall_eq_plainCall]

/-- A padding that fills the window hides the write. -/
theorem not_closedCallsReported_paddedCall
    (label : Text)
    (blank : ∀ c ∈ padding, Text.isBlank c = true)
    (long : CallSpan.defaultWindow ≤ padding.length) :
    ¬ ClosedCallsReported label (paddedCall padding) .script := by
  intro reported
  have isReported :=
    reported 0 10 _ (closedCall_paddedCall blank) ⟨.script, .hidden⟩ (by decide) rfl rfl _
      (offendsIn_paddedCall blank)
  obtain ⟨span, member, _, ⟨occurrence, occurs, _, _⟩, _⟩ :=
    (exists_mem_scan_iff_of_call (by decide) rfl _).mp isReported
  have isCut : span = ⟨0, 10, 10 + CallSpan.defaultWindow, true⟩ := by
    rw [paddedCall_eq_plainCall, callSpans_plainCall (isPlain_padded blank),
      List.mem_singleton, plainSpan, if_neg] at member
    · exact member
    · rw [List.length_append]
      omega
  subst isCut
  obtain ⟨c, here, notBlank⟩ :=
    Pattern.getElem?_of_mem_occurrences (Rule.pattern_isSolid _) occurs
  obtain ⟨after, before, _⟩ := Pattern.offset_of_mem_occurrences occurs
  obtain ⟨index, inWindow⟩ := Nat.exists_eq_add_of_le after
  simp only [CallSpan.region] at here before inWindow
  have inPadding : index < padding.length := by omega
  have inArgument : index < (padding ++ "a.hidden=1".toList).length := by
    rw [List.length_append]
    omega
  rw [inWindow, paddedCall_eq_plainCall, getElem?_plainCall inArgument,
    List.getElem?_append_left inPadding] at here
  simp [blank c (List.mem_of_getElem? here)] at notBlank

end PaddedCall

/-- Four thousand spaces hide the write behind them. -/
theorem not_closedCallsReported_of_long_argument :
    ¬ ClosedCallsReported "t.js" (paddedCall (List.replicate 4000 ' ')) .script := by
  apply not_closedCallsReported_paddedCall
  · intro c member
    rw [List.eq_of_mem_replicate member]
    rfl
  · rw [List.length_replicate]
    exact Nat.le_refl 4000

end TestAudit.Scan
