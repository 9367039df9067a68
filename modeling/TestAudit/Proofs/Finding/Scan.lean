import TestAudit.Finding.Scan
import TestAudit.Proofs.Distinct
import TestAudit.Proofs.Rule.Catalog
import TestAudit.Proofs.Source.Mask
import TestAudit.Proofs.Text.Line
import TestAudit.Proofs.Text.Order
import TestAudit.Proofs.Text.Trim

namespace TestAudit.Scan

/-!
# What a scan reports

A rule offends at an offset when it matches there, in one of its regions, on a
receiver that is not read-only. A scan reports each line and rule with an offence
once, in order, and what it reports of them does not depend on the match that was
seen first.
-/

/-- The regions of a text in which a rule is searched for. -/
def regionsFor (language : Language) (text : Text) (rule : Rule) : List Region :=
  let calls :=
    (language.callSpans text CallSpan.defaultWindow).map (·.region text)
  match rule.scope with
  | .file => Region.whole (language.mask text) :: calls
  | .call => calls

/-- A rule matches at an offset of a region on a receiver that is not read-only. -/
def OffendsIn (rule : Rule) (region : Region) (offset : Nat) : Prop :=
  ∃ occurrence ∈ rule.pattern.occurrences region.excerpt,
    occurrence.offset = offset ∧
      Receiver.isReadOnly (Receiver.chain region.text offset region.start) = false

/-- A rule of the language offends in one of its regions. -/
def Offends (language : Language) (text : Text) (rule : Rule) (offset : Nat) : Prop :=
  rule ∈ language.rules ∧
    ∃ region ∈ regionsFor language text rule, OffendsIn rule region offset

/-- What is reported of a rule on a line. -/
def reportOf (label text : Text) (rule : Rule) (line : Int) : Violation where
  file := label
  line := line
  id := rule.id
  severity := rule.severity
  description := rule.description
  commandment := rule.commandment
  context := contextWindow (text.splitOn '\n') line

variable {language : Language} {label text : Text}

/-! ## Matches -/

theorem mem_allMatches_iff
    {found : Match} :
    found ∈ allMatches language text ↔
      found.rule ∈ language.rules ∧
        ∃ region ∈ regionsFor language text found.rule,
          found.occurrence ∈ found.rule.pattern.occurrences region.excerpt ∧
            found.receiver =
              Receiver.chain region.text found.occurrence.offset region.start := by
  have excerpts
      (rule : Rule) :
      excerptsFor rule (Region.whole (language.mask text)).excerpt
          ((language.callSpans text CallSpan.defaultWindow).map fun span =>
            (span.region text).excerpt) =
        (regionsFor language text rule).map Region.excerpt := by
    unfold excerptsFor regionsFor
    cases rule.scope <;> simp [List.map_map, Function.comp_def]
  simp only [allMatches, excerpts, matchesIn, List.mem_flatMap, List.mem_map]
  constructor
  · rintro ⟨rule, isRule, _, ⟨region, isRegion, rfl⟩, occurrence, occurs, rfl⟩
    exact ⟨isRule, region, isRegion, occurs, rfl⟩
  · rintro ⟨isRule, region, isRegion, occurs, receiver⟩
    refine ⟨found.rule, isRule, region.excerpt, ⟨region, isRegion, rfl⟩,
      found.occurrence, occurs, ?_⟩
    cases found
    simp only at receiver
    subst receiver
    rfl

/-- A rule is searched for in the arguments of a call, or in the whole masked text. -/
theorem mem_regionsFor_cases
    {rule : Rule}
    {region : Region}
    (member : region ∈ regionsFor language text rule) :
    (∃ span ∈ language.callSpans text CallSpan.defaultWindow, region = span.region text) ∨
      rule.scope = .file ∧ region = Region.whole (language.mask text) := by
  have inCall
      (isCall :
        region ∈ (language.callSpans text CallSpan.defaultWindow).map (·.region text)) :
      ∃ span ∈ language.callSpans text CallSpan.defaultWindow, region = span.region text := by
    obtain ⟨span, isSpan, rfl⟩ := List.mem_map.mp isCall
    exact ⟨span, isSpan, rfl⟩
  unfold regionsFor at member
  split at member
  · next isFile =>
      rcases List.mem_cons.mp member with rfl | isCall
      · exact Or.inr ⟨isFile, rfl⟩
      · exact Or.inl (inCall isCall)
  · exact Or.inl (inCall member)

/-- A match begins with a character of the text that is not blank. -/
theorem exists_getElem?_of_mem_allMatches
    {found : Match}
    (member : found ∈ allMatches language text) :
    ∃ c, text[found.occurrence.offset]? = some c ∧ Text.isBlank c = false := by
  obtain ⟨_, region, isRegion, occurs, _⟩ := mem_allMatches_iff.mp member
  obtain ⟨c, here, notBlank⟩ :=
    Pattern.getElem?_of_mem_occurrences found.rule.pattern_isSolid occurs
  refine ⟨c, ?_, notBlank⟩
  rcases mem_regionsFor_cases isRegion with ⟨span, _, rfl⟩ | ⟨_, rfl⟩
  · exact here
  · exact Language.getElem?_of_getElem?_mask here notBlank

/-! ## Reports -/

/-- The context of a line shows the characters of the line, up to carriage returns. -/
theorem mem_contextWindow
    {lines : List Text}
    {number : Nat}
    {piece : Text}
    {c : Char}
    (isLine : lines[number]? = some piece)
    (member : c ∈ piece)
    (notReturn : (c == '\r') = false) :
    c ∈ contextWindow lines ((number : Int) + 1) := by
  have notNegative : ¬ (number : Int) + 1 + linesAfter < 0 := by
    simp only [linesAfter]
    omega
  have stop : ((number : Int) + 1 + linesAfter).toNat = number + 6 := by
    simp only [linesAfter]
    omega
  have start : ((number : Int) + 1 - 1 - linesBefore).toNat = number - 2 := by
    simp only [linesBefore]
    omega
  have shown : piece ∈ (lines.take (number + 6)).drop (number - 2) := by
    have index : number - 2 + (number - (number - 2)) = number := by omega
    apply List.mem_of_getElem?
    rw [List.getElem?_drop, index, List.getElem?_take_of_lt (by omega)]
    exact isLine
  simp only [contextWindow, notNegative, ↓reduceIte, stop, start]
  exact Text.mem_joinWith (List.mem_map_of_mem shown)
    (Text.mem_dropEndWhile member notReturn)

/-- The lines around a character that is not blank are not all blank. -/
theorem contextWindow_not_allBlank
    {offset : Nat}
    {c : Char}
    (here : text[offset]? = some c)
    (notBlank : Text.isBlank c = false) :
    (contextWindow (text.splitOn '\n') (lineNumber text offset)).allBlank = false := by
  have notLineFeed : c ≠ '\n' := by
    rintro rfl
    cases notBlank
  have notReturn : (c == '\r') = false := by
    rw [beq_eq_false_iff_ne]
    rintro rfl
    cases notBlank
  obtain ⟨piece, isLine, member⟩ := Text.exists_getElem?_splitOn here notLineFeed
  have shown : c ∈ contextWindow (text.splitOn '\n') (lineNumber text offset) :=
    mem_contextWindow isLine member notReturn
  rw [Text.allBlank, List.all_eq_false]
  exact ⟨c, shown, by simp [notBlank]⟩

/-- The violation that a match is depends only on its rule and its line. -/
theorem violationOf_eq_reportOf
    {found : Match}
    (member : found ∈ allMatches language text) :
    violationOf label text (text.splitOn '\n') found =
      reportOf label text found.rule (lineNumber text found.occurrence.offset) := by
  obtain ⟨c, here, notBlank⟩ := exists_getElem?_of_mem_allMatches member
  unfold violationOf reportOf
  simp only [contextWindow_not_allBlank here notBlank, Bool.false_eq_true, ↓reduceIte]

/-- Every violation is made of a match that is not passed over. -/
theorem exists_of_mem_violationsOf
    {matched : List Match}
    {violation : Violation}
    (member : violation ∈ violationsOf label text matched) :
    ∃ found ∈ matched,
      found.isHarmless = false ∧ violation = violationOf label text (text.splitOn '\n') found := by
  simp only [violationsOf, List.mem_mergeSort] at member
  obtain ⟨found, isReported, rfl⟩ := List.mem_map.mp (mem_of_mem_distinctBy member)
  obtain ⟨isMatch, harmful⟩ := List.mem_filter.mp isReported
  exact ⟨found, isMatch, by simpa using harmful, rfl⟩

/-- The lines and rules that are reported are those with an offence. -/
theorem exists_mem_violationsOf_iff
    {line : Int}
    {id : Text} :
    (∃ violation ∈ violationsOf label text (allMatches language text),
        violation.line = line ∧ violation.id = id) ↔
      ∃ rule offset,
        Offends language text rule offset ∧
          line = 1 + ((text.take offset).count '\n' : Int) ∧ id = rule.id := by
  constructor
  · rintro ⟨violation, member, rfl, rfl⟩
    obtain ⟨found, isMatch, harmful, rfl⟩ := exists_of_mem_violationsOf member
    obtain ⟨isRule, region, isRegion, occurs, receiver⟩ := mem_allMatches_iff.mp isMatch
    refine ⟨found.rule, found.occurrence.offset,
      ⟨isRule, region, isRegion, found.occurrence, occurs, rfl, ?_⟩, ?_, rfl⟩
    · rw [← receiver]
      exact harmful
    · simp only [violationOf, lineNumber]
      omega
  · rintro ⟨rule, _, ⟨isRule, region, isRegion, occurrence, occurs, rfl, harmful⟩, rfl, rfl⟩
    let found : Match := {
      rule := rule
      occurrence := occurrence
      receiver := Receiver.chain region.text occurrence.offset region.start
    }
    have isMatch : found ∈ allMatches language text :=
      mem_allMatches_iff.mpr ⟨isRule, region, isRegion, occurs, rfl⟩
    have isReported :
        found ∈ (allMatches language text).filter (!·.isHarmless) :=
      List.mem_filter.mpr ⟨isMatch, by simp [Match.isHarmless, found, harmful]⟩
    have isViolation :
        violationOf label text (text.splitOn '\n') found ∈
          ((allMatches language text).filter (!·.isHarmless)).map
            (violationOf label text (text.splitOn '\n')) :=
      List.mem_map_of_mem isReported
    obtain ⟨violation, isDistinct, sameKey⟩ :=
      @exists_mem_distinctBy _ _ _ Violation.key _ _ isViolation
    refine ⟨violation, List.mem_mergeSort.mpr isDistinct, ?_, ?_⟩
    · have sameLine := congrArg Violation.Key.line sameKey
      simp only [Violation.key, violationOf, lineNumber, found] at sameLine
      omega
    · exact congrArg Violation.Key.id sameKey

theorem region_mem_regionsFor
    (rule : Rule)
    {span : CallSpan}
    (member : span ∈ language.callSpans text CallSpan.defaultWindow) :
    span.region text ∈ regionsFor language text rule := by
  have inCalls :
      span.region text ∈
        (language.callSpans text CallSpan.defaultWindow).map (·.region text) :=
    List.mem_map_of_mem member
  unfold regionsFor
  cases rule.scope with
  | file => exact List.mem_cons_of_mem _ inCalls
  | call => exact inCalls

theorem exists_mem_scan_of_offends
    (label : Text)
    {rule : Rule}
    {offset : Nat}
    (offends : Offends language text rule offset) :
    ∃ violation ∈ (scan label text (some language)).value,
      violation.line = lineNumber text offset ∧ violation.id = rule.id := by
  refine exists_mem_violationsOf_iff.mpr ⟨rule, offset, offends, ?_, rfl⟩
  rw [lineNumber]
  omega

/-- Whatever is reported is the report of its rule on its line. -/
theorem eq_reportOf_of_mem_violationsOf
    {violation : Violation}
    (member : violation ∈ violationsOf label text (allMatches language text)) :
    ∃ rule ∈ language.rules, violation = reportOf label text rule violation.line := by
  obtain ⟨found, isMatch, _, rfl⟩ := exists_of_mem_violationsOf member
  rw [violationOf_eq_reportOf isMatch]
  exact ⟨found.rule, (mem_allMatches_iff.mp isMatch).1, rfl⟩

/-! ## Order -/

theorem precedes_trans
    (first second third : Violation)
    (before : first.precedes second = true)
    (after : second.precedes third = true) :
    first.precedes third = true := by
  simp only [Violation.precedes, Bool.or_eq_true, decide_eq_true_eq, Bool.and_eq_true,
    beq_iff_eq] at before after ⊢
  rcases before with lineBefore | ⟨sameLine, idBefore⟩
  · rcases after with lineAfter | ⟨nextSame, _⟩ <;> left <;> omega
  · rcases after with lineAfter | ⟨nextSame, idAfter⟩
    · left
      omega
    · exact Or.inr ⟨sameLine.trans nextSame, Text.le_trans idBefore idAfter⟩

theorem precedes_total
    (first second : Violation) :
    (first.precedes second || second.precedes first) = true := by
  simp only [Violation.precedes, Bool.or_eq_true, decide_eq_true_eq, Bool.and_eq_true,
    beq_iff_eq]
  rcases Int.lt_trichotomy first.line second.line with less | same | greater
  · exact Or.inl (Or.inl less)
  · rcases Text.le_total first.id second.id with before | after
    · exact Or.inl (Or.inr ⟨same, before⟩)
    · exact Or.inr (Or.inr ⟨same.symm, after⟩)
  · exact Or.inr (Or.inl greater)

theorem file_of_mem_violationsOf
    {found : List Match}
    {violation : Violation}
    (member : violation ∈ violationsOf label text found) :
    violation.file = label := by
  obtain ⟨found, _, _, rfl⟩ := exists_of_mem_violationsOf member
  rfl

/-- Violations are listed by line, and by identifier on one line, without repetition. -/
theorem pairwise_violationsOf
    (label text : Text)
    (found : List Match) :
    (violationsOf label text found).Pairwise fun first second =>
      first.line < second.line ∨
        (first.line = second.line ∧ Text.le first.id second.id = true ∧
          first.id ≠ second.id) := by
  have sorted :
      (violationsOf label text found).Pairwise fun first second =>
        first.precedes second = true :=
    List.pairwise_mergeSort precedes_trans precedes_total _
  have distinct :
      (violationsOf label text found).Pairwise fun first second =>
        first.key ≠ second.key :=
    (List.mergeSort_perm _ _).symm.pairwise (pairwise_distinctBy _) Ne.symm
  refine (sorted.and distinct).imp_of_mem ?_
  rintro first second isFirst isSecond ⟨ordered, differ⟩
  simp only [Violation.precedes, Bool.or_eq_true, decide_eq_true_eq, Bool.and_eq_true,
    beq_iff_eq] at ordered
  rcases ordered with less | ⟨sameLine, idOrdered⟩
  · exact Or.inl less
  · refine Or.inr ⟨sameLine, idOrdered, ?_⟩
    intro sameId
    apply differ
    simp only [Violation.key, file_of_mem_violationsOf isFirst,
      file_of_mem_violationsOf isSecond, sameLine, sameId]

/-! ## Findings -/

/-- The lines and the identifiers of rules that a scan reports. -/
def findings (label text : Text) (language : Language) : List (Int × Text) :=
  (scan label text (some language)).value.map fun violation => (violation.line, violation.id)

/-- One finding comes before another: on an earlier line, or with a smaller identifier on it. -/
def ListedBefore (first second : Int × Text) : Prop :=
  first.1 < second.1 ∨
    (first.1 = second.1 ∧ Text.le first.2 second.2 = true ∧ first.2 ≠ second.2)

theorem ListedBefore.asymm
    {first second : Int × Text}
    (before : ListedBefore first second) :
    ¬ ListedBefore second first := by
  intro after
  rcases before with less | ⟨sameLine, idBefore, differ⟩
  · rcases after with greater | ⟨sameLine, _⟩ <;> omega
  · rcases after with greater | ⟨_, idAfter, _⟩
    · omega
    · exact differ (Text.le_antisymm idBefore idAfter)

theorem pairwise_findings
    (label text : Text)
    (language : Language) :
    (findings label text language).Pairwise ListedBefore :=
  List.pairwise_map.mpr (pairwise_violationsOf label text (allMatches language text))

theorem nodup_findings
    (label text : Text)
    (language : Language) :
    (findings label text language).Nodup := by
  refine (pairwise_findings label text language).imp ?_
  rintro finding _ before rfl
  exact before.asymm before

theorem file_of_mem_scan
    {language : Option Language}
    {violation : Violation}
    (member : violation ∈ (scan label text language).value) :
    violation.file = label := by
  cases language with
  | none => cases member
  | some language => exact file_of_mem_violationsOf member

/-- Violations of one identifier are equally grave, in whatever scans they are. -/
theorem severity_eq_of_mem_scan
    {language otherLanguage : Option Language}
    {otherLabel otherText : Text}
    {violation other : Violation}
    (member : violation ∈ (scan label text language).value)
    (isOther : other ∈ (scan otherLabel otherText otherLanguage).value)
    (same : violation.id = other.id) :
    violation.severity = other.severity := by
  have hasRule {label text : Text} {language : Option Language} {violation : Violation}
      (member : violation ∈ (scan label text language).value) :
      ∃ rule : Rule, violation.id = rule.id ∧ violation.severity = rule.severity := by
    cases language with
    | none => cases member
    | some language =>
        obtain ⟨rule, _, report⟩ := eq_reportOf_of_mem_violationsOf member
        exact ⟨rule, congrArg Violation.id report, congrArg Violation.severity report⟩
  obtain ⟨rule, isId, isSeverity⟩ := hasRule member
  obtain ⟨otherRule, isOtherId, isOtherSeverity⟩ := hasRule isOther
  rw [isSeverity, isOtherSeverity]
  exact Rule.severity_eq_of_id_eq (isId.symm.trans (same.trans isOtherId))

/-- No two violations of one scan have the same key. -/
theorem nodup_key_scan
    (label text : Text)
    (language : Option Language) :
    ((scan label text language).value.map Violation.key).Nodup := by
  cases language with
  | none => exact List.nodup_nil
  | some language =>
      refine List.Nodup.of_map (fun key : Violation.Key => (key.line, key.id)) ?_
      rw [List.map_map]
      exact nodup_findings label text language

theorem mem_findings_iff
    {line : Int}
    {id : Text} :
    (line, id) ∈ findings label text language ↔
      ∃ rule offset,
        Offends language text rule offset ∧ line = lineNumber text offset ∧ id = rule.id := by
  have counted (offset : Nat) :
      (lineNumber text offset : Int) = 1 + ((text.take offset).count '\n' : Int) := by
    rw [lineNumber]
    omega
  have reported :=
    @exists_mem_violationsOf_iff language label text line id
  simp only [findings, List.mem_map, Prod.mk.injEq, counted]
  exact reported

/-- Two lists in this order that have the same members are one. -/
theorem eq_of_pairwise_listedBefore
    {α : Type}
    {finding : α → Int × Text}
    {first second : List α}
    (ordered : first.Pairwise fun one next => ListedBefore (finding one) (finding next))
    (otherOrdered : second.Pairwise fun one next => ListedBefore (finding one) (finding next))
    (sameMembers : ∀ item, item ∈ first ↔ item ∈ second) :
    first = second := by
  have nodup
      {items : List α}
      (ordered : items.Pairwise fun one next => ListedBefore (finding one) (finding next)) :
      items.Nodup := by
    refine ordered.imp ?_
    rintro item _ before rfl
    exact before.asymm before
  have permuted : first.Perm second :=
    (List.perm_ext_iff_of_nodup (nodup ordered) (nodup otherOrdered)).mpr sameMembers
  exact permuted.eq_of_pairwise (fun _ _ _ _ before after => (before.asymm after).elim)
    ordered otherOrdered

/-- The findings are determined by the offences and their lines. -/
theorem findings_eq_of_offends_iff
    {other : Text}
    (label : Text)
    (sameLines : ∀ offset, lineNumber other offset = lineNumber text offset)
    (sameOffences :
      ∀ rule offset, Offends language other rule offset ↔ Offends language text rule offset) :
    findings label other language = findings label text language := by
  refine @eq_of_pairwise_listedBefore _ id _ _ (pairwise_findings _ _ _)
    (pairwise_findings _ _ _) ?_
  rintro ⟨line, id⟩
  simp only [mem_findings_iff, sameLines, sameOffences]

/-- A scan reports the rules with an offence, on the lines where they offend. -/
theorem mem_scan_iff
    {violation : Violation} :
    violation ∈ (scan label text (some language)).value ↔
      ∃ rule offset,
        Offends language text rule offset ∧
          violation = reportOf label text rule (lineNumber text offset) := by
  have report
      {violation : Violation}
      {rule : Rule}
      {offset : Nat}
      (member : violation ∈ (scan label text (some language)).value)
      (offends : Offends language text rule offset)
      (onLine : violation.line = lineNumber text offset)
      (ofRule : violation.id = rule.id) :
      violation = reportOf label text rule (lineNumber text offset) := by
    obtain ⟨reported, isRule, isReport⟩ := eq_reportOf_of_mem_violationsOf member
    have sameRule : reported = rule := by
      refine Rule.eq_of_id_eq isRule offends.1 ?_
      rw [← ofRule, isReport]
      rfl
    rw [← sameRule, ← onLine]
    exact isReport
  constructor
  · intro member
    obtain ⟨rule, offset, offends, onLine, ofRule⟩ :=
      mem_findings_iff.mp (List.mem_map_of_mem member)
    exact ⟨rule, offset, offends, report member offends onLine ofRule⟩
  · rintro ⟨rule, offset, offends, rfl⟩
    obtain ⟨violation, member, onLine, ofRule⟩ := exists_mem_scan_of_offends label offends
    exact report member offends onLine ofRule ▸ member

/-! ## The result of a scan -/

/--
A scan reports exactly the lines and rules with an offence, each of them once, by
line and then by identifier, and what it says of one is determined by its rule and
its line.
-/
theorem scan_reports_offences
    (label text : Text)
    (language : Language) :
    let violations := (scan label text (some language)).value
    (∀ line id,
        (∃ violation ∈ violations, violation.line = line ∧ violation.id = id) ↔
          ∃ rule offset,
            Offends language text rule offset ∧
              line = 1 + ((text.take offset).count '\n' : Int) ∧ id = rule.id) ∧
      (violations.map fun violation => (violation.line, violation.id)).Nodup ∧
      (violations.Pairwise fun first second =>
        first.line < second.line ∨
          (first.line = second.line ∧ Text.le first.id second.id = true ∧
            first.id ≠ second.id)) ∧
      ∀ violation ∈ violations,
        (∃ rule ∈ language.rules, violation.id = rule.id) ∧
          ∀ rule ∈ language.rules,
            violation.id = rule.id →
            violation = reportOf label text rule violation.line := by
  have ordered := pairwise_violationsOf label text (allMatches language text)
  refine ⟨fun line id => exists_mem_violationsOf_iff, ?_, ordered, ?_⟩
  · rw [List.nodup_iff_pairwise_ne, List.pairwise_map]
    refine ordered.imp ?_
    rintro first second (less | ⟨_, _, differ⟩) same
    · have sameLine := congrArg Prod.fst same
      simp only at sameLine
      omega
    · exact differ (congrArg Prod.snd same)
  · intro violation member
    obtain ⟨rule, isRule, report⟩ := eq_reportOf_of_mem_violationsOf member
    have ruleId : violation.id = rule.id := congrArg Violation.id report
    refine ⟨⟨rule, isRule, ruleId⟩, ?_⟩
    intro other isOther otherId
    have same : other = rule :=
      Rule.eq_of_id_eq isOther isRule (otherId.symm.trans ruleId)
    rw [same]
    exact report

end TestAudit.Scan
