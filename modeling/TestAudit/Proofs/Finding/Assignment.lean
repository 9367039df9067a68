import TestAudit.Proofs.Finding.FileScope
import TestAudit.Proofs.Finding.PlainCall
import TestAudit.Proofs.Rule.Assignment

namespace TestAudit.Scan

/-!
# Reported assignments

A match that ends in an equals sign is reported as a write. In the text a comparison or
an arrow may go on behind that sign only if the match stops where a span was cut off: the
parenthesis that closes a call follows any other match at the end of its span, and masking
leaves the code behind an equals sign as it is.
-/

/-- The match that a violation is reported for: the first one of its rule on its line. -/
def reportedMatch? (language : Language) (text : Text) (violation : Violation) : Option Match :=
  ((allMatches language text).filter (!·.isHarmless)).find? fun found =>
    decide ((lineNumber text found.occurrence.offset : Int) = violation.line) &&
      found.rule.id == violation.id

/-- A match that ends in an assignment, and in no comparison or arrow of its text. -/
structure IsWrite (text : Text) (found : Match) : Prop where
  assignment : found.occurrence.matched.EndsInAssignment
  whole : ¬ ExtendsEquals text[found.occurrence.stop]?

/-- What is reported for a match that ends in an equals sign is a write. -/
def OnlyWritesReported (label text : Text) (language : Language) : Prop :=
  ∀ violation ∈ (scan label text (some language)).value,
    ∀ found,
      reportedMatch? language text violation = some found →
      found.occurrence.matched.getLast? = some '=' →
      IsWrite text found

/-- A match stops where a span was cut off, within a comparison or an arrow. -/
def IsCut (language : Language) (text : Text) (found : Match) : Prop :=
  ∃ span ∈ language.callSpans text CallSpan.defaultWindow,
    span.truncated = true ∧
      found.occurrence.stop = span.stop ∧
      ExtendsEquals text[span.stop]?

variable {language : Language} {label text : Text}

/-- A violation is what its reported match is. -/
theorem exists_reportedMatch
    {violation : Violation}
    (member : violation ∈ (scan label text (some language)).value) :
    ∃ found,
      reportedMatch? language text violation = some found ∧
        found ∈ allMatches language text ∧
        violation = violationOf label text (text.splitOn '\n') found := by
  obtain ⟨found, isMatch, harmful, rfl⟩ := exists_of_mem_violationsOf member
  have isReported : found ∈ (allMatches language text).filter (!·.isHarmless) :=
    List.mem_filter.mpr ⟨isMatch, by simpa using harmful⟩
  have isSome :
      (reportedMatch? language text
        (violationOf label text (text.splitOn '\n') found)).isSome = true := by
    rw [reportedMatch?, List.find?_isSome]
    exact ⟨found, isReported, by simp [violationOf]⟩
  obtain ⟨first, isFirst⟩ := Option.isSome_iff_exists.mp isSome
  have firstReported := List.mem_of_find?_eq_some isFirst
  have firstIsMatch := (List.mem_filter.mp firstReported).1
  have sameKey := List.find?_some isFirst
  rw [Bool.and_eq_true, decide_eq_true_eq, beq_iff_eq] at sameKey
  obtain ⟨sameLine, sameId⟩ := sameKey
  have sameRule : first.rule = found.rule :=
    Rule.eq_of_id_eq (mem_allMatches_iff.mp firstIsMatch).1 (mem_allMatches_iff.mp isMatch).1 sameId
  refine ⟨first, isFirst, firstIsMatch, ?_⟩
  rw [violationOf_eq_reportOf firstIsMatch, sameRule, sameLine, violationOf_eq_reportOf isMatch]
  rfl

/-- Behind a match in the masked text, no comparison or arrow goes on. -/
theorem not_extendsEquals_of_masked
    {rule : Rule}
    {occurrence : Occurrence}
    (occurs :
      occurrence ∈ rule.pattern.occurrences (Region.whole (language.mask text)).excerpt)
    (isLast : occurrence.matched.getLast? = some '=') :
    ¬ ExtendsEquals text[occurrence.stop]? := by
  obtain ⟨_, atSign, within, notInMask⟩ := rule.assigns_pattern.of_mem_occurrences occurs isLast
  simp only [Region.whole, Language.length_mask] at atSign within notInMask
  have sign : language.Code text (occurrence.stop - 1) :=
    Language.code_of_getElem?_mask atSign rfl rfl
  have positive : 0 < occurrence.stop := by
    have nonempty : occurrence.matched ≠ [] := by
      rintro none
      simp [none] at isLast
    have := List.length_pos_iff.mpr nonempty
    unfold Occurrence.stop
    omega
  have boundary : language.Boundary text occurrence.stop := by
    have reads := sign.reads.tail sign.tokenEnds
    rwa [Nat.sub_add_cancel positive] at reads
  intro extended
  obtain ⟨c, next, isOperator⟩ : ∃ c, text[occurrence.stop]? = some c ∧ (c = '=' ∨ c = '>') := by
    rcases extended with isEquals | isGreater
    · exact ⟨_, isEquals, Or.inl rfl⟩
    · exact ⟨_, isGreater, Or.inr rfl⟩
  have inText := (List.getElem?_eq_some_iff.mp next).1
  -- No literal begins with either character, so it is code, and masking keeps it.
  have notHead : c ∉ language.literalHeads := by
    rcases isOperator with rfl | rfl <;> cases language <;> decide
  have plain : language.literalLength? (text.drop occurrence.stop) = none := by
    rw [List.drop_eq_getElem_cons inText, (List.getElem?_eq_some_iff.mp next).2]
    exact Language.literalLength?_of_not_mem_literalHeads notHead
  apply notInMask inText
  rw [Language.getElem?_mask_of_code ⟨boundary, inText, plain⟩]
  exact extended

/-- A match that ends in an equals sign is a write, unless it was cut off. -/
theorem isWrite_or_isCut
    {found : Match}
    (isMatch : found ∈ allMatches language text)
    (isLast : found.occurrence.matched.getLast? = some '=') :
    found.occurrence.matched.EndsInAssignment ∧
      (ExtendsEquals text[found.occurrence.stop]? → IsCut language text found) := by
  obtain ⟨_, region, isRegion, occurs, _⟩ := mem_allMatches_iff.mp isMatch
  have occursThere := found.rule.assigns_pattern.of_mem_occurrences occurs isLast
  refine ⟨occursThere.1, ?_⟩
  intro extended
  rcases mem_regionsFor_cases isRegion with ⟨span, member, rfl⟩ | ⟨_, rfl⟩
  · obtain ⟨_, _, atMost, notInside⟩ := occursThere
    have atStop : found.occurrence.stop = span.stop := by
      apply Nat.le_antisymm atMost
      apply Nat.le_of_not_lt
      intro inside
      exact notInside inside extended
    rw [atStop] at extended
    refine ⟨span, member, ?_, atStop, extended⟩
    by_contra notCut
    have reaches := ((language.foundFrom_callSpans text CallSpan.defaultWindow).of_mem member).2
    have closes := (reaches.closes (Bool.eq_false_iff.mpr notCut)).1
    rw [closes.getElem?_close] at extended
    rcases extended with isEquals | isGreater
    · cases isEquals
    · cases isGreater
  · exact (not_extendsEquals_of_masked occurs isLast extended).elim

/--
Comparisons and arrows are never reported just when no reported match stops at the cut of
a span within one. Every violation belongs to a match, and one that ends in an equals sign
has a property, white space and at most one sign before it.
-/
theorem onlyWritesReported_iff
    (label text : Text)
    (language : Language) :
    (OnlyWritesReported label text language ↔
      ∀ violation ∈ (scan label text (some language)).value,
        ∀ found,
          reportedMatch? language text violation = some found →
          found.occurrence.matched.getLast? = some '=' →
          ¬ IsCut language text found) ∧
      ∀ violation ∈ (scan label text (some language)).value,
        ∃ found,
          reportedMatch? language text violation = some found ∧
            violation = violationOf label text (text.splitOn '\n') found ∧
            (found.occurrence.matched.getLast? = some '=' →
              found.occurrence.matched.EndsInAssignment) := by
  refine ⟨⟨?_, ?_⟩, ?_⟩
  · rintro onlyWrites violation member found isReported isLast ⟨span, _, _, atStop, extended⟩
    have whole := (onlyWrites violation member found isReported isLast).whole
    rw [atStop] at whole
    exact whole extended
  · intro notCut violation member found isReported isLast
    obtain ⟨_, isFound, isMatch, _⟩ := exists_reportedMatch member
    cases isReported.symm.trans isFound
    obtain ⟨assignment, cut⟩ := isWrite_or_isCut isMatch isLast
    exact ⟨assignment, fun extended => notCut violation member found isReported isLast (cut extended)⟩
  · intro violation member
    obtain ⟨found, isReported, isMatch, isViolation⟩ := exists_reportedMatch member
    exact ⟨found, isReported, isViolation, fun isLast => (isWrite_or_isCut isMatch isLast).1⟩

/-! ## A comparison at the cut -/

/-- A call whose argument compares a hidden property, behind a padding. -/
def comparingCall (padding : Text) : Text :=
  plainCall (padding ++ ("a.hidden=".toList ++ "=1".toList))

section ComparingCall

variable {padding : Text}

theorem isPlain_comparison : IsPlain ("a.hidden=".toList ++ "=1".toList) :=
  .of_all (by decide)

theorem occurrencesFrom_comparison
    (offset : Nat)
    (before : Text) :
    (Rule.pattern ⟨.script, .hidden⟩).occurrencesFrom 0 offset before "a.hidden=".toList =
      [⟨offset + 1, ".hidden="⟩] := by
  cbv

/-- A padding of the right length ends the window between the two signs. -/
theorem regionsFor_comparingCall
    (blank : ∀ c ∈ padding, Text.isBlank c = true)
    (fills : (padding ++ "a.hidden=".toList).length = CallSpan.defaultWindow) :
    regionsFor .script (comparingCall padding) ⟨.script, .hidden⟩ =
      [⟨comparingCall padding, 10, 10 + (padding ++ "a.hidden=".toList).length⟩] := by
  have spans :
      Language.callSpans .script (comparingCall padding) CallSpan.defaultWindow =
        [⟨0, 10, 10 + (padding ++ "a.hidden=".toList).length, true⟩] := by
    unfold comparingCall
    rw [callSpans_plainCall (.of_padding blank isPlain_comparison), plainSpan, if_neg, fills]
    rw [← List.append_assoc, List.length_append, fills]
    omega
  rw [regionsFor, spans]
  rfl

/-- The comparison at the cut is reported as a write. -/
theorem not_onlyWritesReported_comparingCall
    (label : Text)
    (blank : ∀ c ∈ padding, Text.isBlank c = true)
    (fills : (padding ++ "a.hidden=".toList).length = CallSpan.defaultWindow) :
    ¬ OnlyWritesReported label (comparingCall padding) .script := by
  have regions := regionsFor_comparingCall blank fills
  intro onlyWrites
  obtain ⟨violation, member, _, sameId⟩ :=
    exists_mem_scan_of_offends label
      ⟨by decide, _, regions ▸ List.mem_singleton_self _,
        offendsIn_plainCall blank (.of_padding blank isPlain_comparison)
          occurrencesFrom_comparison⟩
  obtain ⟨found, isReported, isMatch, isViolation⟩ := exists_reportedMatch member
  obtain ⟨isRule, region, isRegion, occurs, _⟩ := mem_allMatches_iff.mp isMatch
  have isHidden : found.rule = ⟨.script, .hidden⟩ := by
    refine Rule.eq_of_id_eq isRule (by decide) ?_
    rw [← sameId, isViolation]
    rfl
  rw [isHidden, regions, List.mem_singleton] at isRegion
  rw [isHidden, isRegion, comparingCall,
    occurrences_plainCall blank occurrencesFrom_comparison, List.mem_singleton] at occurs
  have whole := (onlyWrites violation member found isReported (by rw [occurs]; rfl)).whole
  have behindSign : (comparingCall padding)[found.occurrence.stop]? = some '=' := by
    have written : "a.hidden=".toList.length = 9 := by decide
    have matched : ".hidden=".toList.length = 8 := by decide
    have atStop : found.occurrence.stop = 10 + (padding ++ "a.hidden=".toList).length := by
      simp only [Occurrence.stop, occurs, List.length_append, written, matched]
      omega
    have inside :
        (padding ++ "a.hidden=".toList).length <
          (padding ++ ("a.hidden=".toList ++ "=1".toList)).length := by
      have behind : "=1".toList.length = 2 := by decide
      simp only [List.length_append, written, behind]
      omega
    rw [atStop, comparingCall, getElem?_plainCall inside, ← List.append_assoc,
      List.getElem?_append_right (Nat.le_refl _), Nat.sub_self]
    rfl
  exact whole (Or.inl behindSign)

end ComparingCall

/-- The window ends behind the first sign of a comparison, which is reported as a write. -/
theorem not_onlyWritesReported_of_cut_comparison :
    ¬ OnlyWritesReported "t.js" (comparingCall (List.replicate 3991 ' ')) .script := by
  apply not_onlyWritesReported_comparingCall
  · intro c member
    rw [List.eq_of_mem_replicate member]
    rfl
  · rw [List.length_append, List.length_replicate]
    rfl

end TestAudit.Scan
