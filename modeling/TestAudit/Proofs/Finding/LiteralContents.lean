import TestAudit.Proofs.Finding.Scan
import TestAudit.Proofs.Source.LiteralContents

namespace TestAudit

/-!
# Findings do not depend on what literals hold

What a comment or a string outside every call holds is not searched, and it cannot
lead the search for calls astray either, as long as its marks stay and no span is cut
off. Two texts that differ nowhere else have the same calls and the same masks, and the
same rules offend in them on the same lines.
-/

namespace Text

/-- A part of a text is told by the characters at its offsets. -/
theorem take_drop_eq_of_agree
    {text other : Text}
    {first count : Nat}
    (agree :
      ∀ offset, first ≤ offset → offset < first + count → other[offset]? = text[offset]?) :
    (other.drop first).take count = (text.drop first).take count := by
  apply List.ext_getElem?
  intro index
  by_cases inPart : index < count
  · rw [List.getElem?_take_of_lt inPart, List.getElem?_take_of_lt inPart,
      List.getElem?_drop, List.getElem?_drop]
    exact agree _ (by omega) (by omega)
  · rw [List.getElem?_take_eq_none (by omega), List.getElem?_take_eq_none (by omega)]

theorem MarksAlike.lineNumber_eq
    {text other : Text}
    (alike : MarksAlike text other)
    (offset : Nat) :
    Scan.lineNumber other offset = Scan.lineNumber text offset := by
  have unblurred : (· == '\n') ∘ blurred = (· == '\n') :=
    funext (blurred_beq_eq (by decide))
  have count (text : Text) : (text.map blurred).count '\n' = text.count '\n' := by
    rw [List.count_eq_countP, List.count_eq_countP, List.countP_map, unblurred]
  rw [Scan.lineNumber, Scan.lineNumber, ← count, ← alike.take offset, count]

end Text

/-- A receiver is read from one character before the floor up to its offset. -/
theorem Receiver.chain_eq_of_agree
    {text other : Text}
    {offset floor : Nat}
    (positive : 0 < floor)
    (agree : ∀ place, floor - 1 ≤ place → place < offset → other[place]? = text[place]?) :
    chain other offset floor = chain text offset floor := by
  have sameReach :
      (other.drop floor).take (offset - floor) = (text.drop floor).take (offset - floor) := by
    apply Text.take_drop_eq_of_agree
    intro place after before
    exact agree place (by omega) (by omega)
  have fromBelow :
      (other.take offset).drop (floor - 1) = (text.take offset).drop (floor - 1) := by
    rw [List.drop_take, List.drop_take]
    apply Text.take_drop_eq_of_agree
    intro place after before
    exact agree place after (by omega)
  have notZero : floor ≠ 0 := by omega
  simp only [chain, sameReach, notZero, ↓reduceIte, fromBelow]

namespace Scan

variable {language : Language} {text other : Text}

/-! ## Offences -/

/-- Two texts agree on their spans when the characters from each call to its end are the same. -/
def AgreeOnSpans (language : Language) (text other : Text) : Prop :=
  ∀ span ∈ language.callSpans text CallSpan.defaultWindow,
    ∀ offset, span.callStart ≤ offset → offset ≤ span.stop → other[offset]? = text[offset]?

/-- What a rule offends at in a span is told by the characters of the span. -/
theorem OffendsIn.of_agreeOnSpans
    {rule : Rule}
    {offset : Nat}
    {span : CallSpan}
    (agree : AgreeOnSpans language text other)
    (member : span ∈ language.callSpans text CallSpan.defaultWindow)
    (offends : OffendsIn rule (span.region text) offset) :
    OffendsIn rule (span.region other) offset := by
  have bounds := (language.foundFrom_callSpans text CallSpan.defaultWindow).bounds member
  have sameChars : (span.region other).chars = (span.region text).chars := by
    simp only [Region.chars, CallSpan.region]
    apply Text.take_drop_eq_of_agree
    intro place after before
    exact agree span member place (by omega) (by omega)
  have sameBefore : (span.region other).before = (span.region text).before := by
    have notZero : span.start ≠ 0 := by omega
    simp only [Region.before, CallSpan.region, notZero, ↓reduceIte]
    apply Text.take_drop_eq_of_agree
    intro place after before
    exact agree span member place (by omega) (by omega)
  obtain ⟨occurrence, occurs, rfl, harmful⟩ := offends
  have within := Pattern.offset_of_mem_occurrences occurs
  have sameReceiver :
      Receiver.chain other occurrence.offset span.start =
        Receiver.chain text occurrence.offset span.start := by
    apply Receiver.chain_eq_of_agree (by omega)
    intro place after before
    exact agree span member place (by omega) (Nat.le_of_lt (Nat.lt_trans before within.2.1))
  refine ⟨occurrence, ?_, rfl, (congrArg Receiver.isReadOnly sameReceiver).trans harmful⟩
  simp only [Pattern.occurrences, Region.excerpt, sameChars, sameBefore]
  exact occurs

theorem Offends.of_agreeOnSpans
    {rule : Rule}
    {offset : Nat}
    (sameSpans :
      language.callSpans other CallSpan.defaultWindow =
        language.callSpans text CallSpan.defaultWindow)
    (sameMask : language.mask other = language.mask text)
    (agree : AgreeOnSpans language text other)
    (offends : Offends language text rule offset) :
    Offends language other rule offset := by
  obtain ⟨isRule, region, isRegion, offendsIn⟩ := offends
  refine ⟨isRule, ?_⟩
  have inCall
      (isCall :
        region ∈ (language.callSpans text CallSpan.defaultWindow).map (·.region text)) :
      ∃ region ∈ regionsFor language other rule, OffendsIn rule region offset := by
    obtain ⟨span, member, rfl⟩ := List.mem_map.mp isCall
    exact ⟨span.region other, region_mem_regionsFor rule (sameSpans ▸ member),
      offendsIn.of_agreeOnSpans agree member⟩
  cases scope : rule.scope with
  | call =>
      rw [regionsFor, scope] at isRegion
      exact inCall isRegion
  | file =>
      rw [regionsFor, scope] at isRegion
      rcases List.mem_cons.mp isRegion with rfl | isCall
      · refine ⟨_, ?_, offendsIn⟩
        rw [regionsFor, scope, sameMask]
        exact List.mem_cons_self
      · exact inCall isCall

/-! ## Two texts -/

/--
One text differs from another only in what literals outside of its calls hold, and in
no mark of literals.
-/
structure DiffersInLiterals (language : Language) (text other : Text) : Prop where
  sameLength : other.length = text.length
  inLiteral :
    ∀ offset, other[offset]? ≠ text[offset]? → language.InLiteral text offset
  outsideCalls :
    ∀ offset,
      other[offset]? ≠ text[offset]? →
      ∀ span ∈ language.callSpans text CallSpan.defaultWindow,
        ¬ (span.callStart ≤ offset ∧ offset ≤ span.stop)
  noMark :
    ∀ (offset : Nat) (c d : Char),
      text[offset]? = some c →
      other[offset]? = some d →
      c ≠ d →
      Text.isLiteralMark c = false ∧ Text.isLiteralMark d = false

namespace DiffersInLiterals

theorem sameCode
    (differs : DiffersInLiterals language text other) :
    language.SameCode text other where
  marksAlike := Text.marksAlike_of_length_eq differs.sameLength differs.noMark
  agree := by
    intro offset code
    by_contra differ
    exact (differs.inLiteral offset differ).not_code code

theorem agreeOnSpans
    (differs : DiffersInLiterals language text other) :
    AgreeOnSpans language text other := by
  intro span member offset after before
  by_contra differ
  exact differs.outsideCalls offset differ span member ⟨after, before⟩

/-- The contents of one literal may be replaced by others of the same length. -/
theorem of_contents
    {front contents otherContents back : Text}
    {first length : Nat}
    (boundary : language.Boundary (front ++ contents ++ back) first)
    (literal :
      language.literalLength? ((front ++ contents ++ back).drop first) = some length)
    (begins : first ≤ front.length)
    (ends : front.length + contents.length ≤ first + length)
    (sameLength : otherContents.length = contents.length)
    (unmarked : (contents ++ otherContents).any Text.isLiteralMark = false)
    (outside :
      ∀ span ∈ language.callSpans (front ++ contents ++ back) CallSpan.defaultWindow,
        span.stop < front.length ∨ front.length + contents.length ≤ span.callStart) :
    DiffersInLiterals language (front ++ contents ++ back)
      (front ++ otherContents ++ back) := by
  have inContents
      (offset : Nat)
      (differ : (front ++ otherContents ++ back)[offset]? ≠ (front ++ contents ++ back)[offset]?) :
      front.length ≤ offset ∧ offset < front.length + contents.length := by
    by_contra outsideContents
    apply differ
    rw [List.append_assoc, List.append_assoc]
    rcases Nat.lt_or_ge offset front.length with before | after
    · rw [List.getElem?_append_left before, List.getElem?_append_left before]
    · rw [List.getElem?_append_right after, List.getElem?_append_right after,
        List.getElem?_append_right (by omega), List.getElem?_append_right (by omega),
        sameLength]
  have ofContents
      {middle : Text}
      {offset : Nat}
      {c : Char}
      (after : front.length ≤ offset)
      (before : offset < front.length + middle.length)
      (here : (front ++ middle ++ back)[offset]? = some c) :
      c ∈ middle := by
    rw [List.append_assoc, List.getElem?_append_right after,
      List.getElem?_append_left (by omega)] at here
    exact List.mem_of_getElem? here
  refine ⟨by simp [sameLength], ?_, ?_, ?_⟩
  · intro offset differ
    have bounds := inContents offset differ
    exact ⟨first, length, boundary, literal, by omega, by omega⟩
  · intro offset differ span member
    have bounds := inContents offset differ
    have apart := outside span member
    omega
  · intro offset c d here otherHere differ
    have bounds := inContents offset (by
      rw [here, otherHere]
      exact fun same => differ (Option.some.inj same).symm)
    have isContent : c ∈ contents := ofContents bounds.1 bounds.2 here
    have isOther : d ∈ otherContents :=
      ofContents bounds.1 (sameLength ▸ bounds.2) otherHere
    rw [List.any_append, Bool.or_eq_false_iff] at unmarked
    exact ⟨Bool.eq_false_iff.mpr (List.any_eq_false.mp unmarked.1 c isContent),
      Bool.eq_false_iff.mpr (List.any_eq_false.mp unmarked.2 d isOther)⟩

end DiffersInLiterals

/--
What comments and strings outside of calls hold has no part in the findings: a script or
a Python text none of whose spans is cut off has the same spans, the same mask and the
same lines and rules reported when it changes nowhere else and in no mark.
-/
theorem sameFindings_of_differsInLiterals
    (label : Text)
    (known : language = .script ∨ language = .python)
    (whole :
      ∀ span ∈ language.callSpans text CallSpan.defaultWindow, span.truncated = false)
    (differs : DiffersInLiterals language text other) :
    language.callSpans other CallSpan.defaultWindow =
        language.callSpans text CallSpan.defaultWindow ∧
      language.mask other = language.mask text ∧
      findings label other language = findings label text language := by
  have notCsharp : language ≠ .csharp := by
    rcases known with rfl | rfl <;> decide
  have same := differs.sameCode
  have sameSpans := same.callSpans_eq notCsharp whole
  have sameMask := same.mask_eq notCsharp
  have agree := differs.agreeOnSpans
  have agreeBack : AgreeOnSpans language other text := by
    intro span member offset after before
    exact (agree span (sameSpans ▸ member) offset after before).symm
  refine ⟨sameSpans, sameMask, ?_⟩
  refine findings_eq_of_offends_iff label same.marksAlike.lineNumber_eq ?_
  intro rule offset
  exact ⟨.of_agreeOnSpans sameSpans.symm sameMask.symm agreeBack,
    .of_agreeOnSpans sameSpans sameMask agree⟩

/-- A write to the page in a call behind a comment. -/
def commentedCall (comment : Text) : Text :=
  "//" ++ comment ++ "\np.evaluate(e.hidden=1)"

/-- A comment that comes to read like a call takes nothing from the finding behind it. -/
theorem sameFindings_of_differsInLiterals_of_comment :
    (∀ span ∈ Language.callSpans .script (commentedCall "          ") CallSpan.defaultWindow,
        span.truncated = false) ∧
      DiffersInLiterals .script (commentedCall "          ") (commentedCall ".evaluate(") ∧
      Language.callSpans .script (commentedCall ".evaluate(") CallSpan.defaultWindow =
        [⟨14, 24, 34, false⟩] ∧
      Language.mask .script (commentedCall ".evaluate(") =
        "            \np.evaluate(e.hidden=1)".toList ∧
      findings "t.js" (commentedCall ".evaluate(") .script =
        [(2, "DOM_HIDDEN_MUTATION".toList)] := by
  have spans :
      Language.callSpans .script (commentedCall "          ") CallSpan.defaultWindow =
        [⟨14, 24, 34, false⟩] := by
    decide
  have whole :
      ∀ span ∈ Language.callSpans .script (commentedCall "          ") CallSpan.defaultWindow,
        span.truncated = false := by
    rw [spans]
    decide
  have differs :
      DiffersInLiterals .script (commentedCall "          ") (commentedCall ".evaluate(") := by
    refine @DiffersInLiterals.of_contents .script "//" "          " ".evaluate(" _ 0 12
      .refl (by decide) (by decide) (by decide) (by decide) (by decide) ?_
    intro span member
    obtain rfl : span = ⟨14, 24, 34, false⟩ := by
      rwa [← commentedCall, spans, List.mem_singleton] at member
    decide
  have found :
      allMatches .script (commentedCall "          ") =
        [⟨⟨.script, .hidden⟩, ⟨25, ".hidden="⟩, "e"⟩] := by
    decide
  have harmful :
      Match.isHarmless ⟨⟨.script, .hidden⟩, ⟨25, ".hidden="⟩, "e"⟩ = false := by
    decide
  obtain ⟨sameSpans, sameMask, sameFindings⟩ :=
    sameFindings_of_differsInLiterals "t.js" (Or.inl rfl) whole differs
  refine ⟨whole, differs, sameSpans.trans spans, sameMask.trans (by decide), ?_⟩
  rw [sameFindings]
  simp only [findings, scan, found, violationsOf, List.filter_cons, harmful, Bool.not_false,
    ↓reduceIte, List.filter_nil, List.map_cons, List.map_nil, distinctBy,
    List.mergeSort_singleton]
  decide

end Scan

end TestAudit
