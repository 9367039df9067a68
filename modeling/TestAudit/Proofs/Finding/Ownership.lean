import TestAudit.Proofs.Finding.Scan
import TestAudit.Proofs.Rule.Ownership
import TestAudit.Proofs.Source.MaskedWrite

namespace TestAudit.Scan

/-!
# Which rule has an assignment

A write to the display of a style belongs to one rule and a write to anything else of it
to another. In one region no assignment is a match of both. A script is searched twice for
the display, in the arguments of calls and with its literals blanked, and in the second
text a comment may have stood where the first one has another write to the same sign.
-/

/-- In a region, no equals sign is the assignment of a match of both rules. -/
def OwnedOnce (language : Language) (region : Region) : Prop :=
  ∀ styled displayed sign,
    (Rule.pattern ⟨language, .style⟩).MatchesIn region styled →
    (Rule.pattern ⟨language, .display⟩).MatchesIn region displayed →
    styled.AssignsAt sign →
    ¬ displayed.AssignsAt sign

/--
The assignment of an equals sign is reported under a rule: a match of the rule makes it, on
a receiver that is not read-only, and its violation is in the report.
-/
def ReportedUnder (label text : Text) (rule : Rule) (sign : Nat) : Prop :=
  ∃ violation ∈ (scan label text (some rule.language)).value,
    ∃ found ∈ allMatches rule.language text,
      found.rule = rule ∧
        found.isHarmless = false ∧
        violation = violationOf label text (text.splitOn '\n') found ∧
        found.occurrence.AssignsAt sign

/-- No assignment of a text belongs to both rules, in any of its regions or in the report. -/
structure HasOneOwner (label text : Text) (language : Language) : Prop where
  inRegion : ∀ start stop, OwnedOnce language ⟨text, start, stop⟩
  inReport :
    ∀ sign,
      ReportedUnder label text ⟨language, .style⟩ sign →
      ¬ ReportedUnder label text ⟨language, .display⟩ sign

variable {language : Language} {label text : Text} {sign : Nat}

open MutationKind (displayName assignsOnlyTo_stylePattern assignsOnlyTo_displayPattern)

theorem ownedOnce
    (language : Language)
    (region : Region) :
    OwnedOnce language region := by
  intro styled displayed sign isStyled isDisplayed
  exact assignsOnlyTo_stylePattern.not_both (assignsOnlyTo_displayPattern language)
    (fun _ => id) isStyled isDisplayed rfl

/-- A reported assignment is one in the text or in what a rule sees of it. -/
theorem ReportedUnder.exists_writesAt
    {rule : Rule}
    {owned : Text → Prop}
    (assigns : rule.pattern.AssignsOnlyTo owned)
    (reported : ReportedUnder label text rule sign) :
    ∃ region ∈ regionsFor rule.language text rule,
      ∃ edge name, owned name ∧ region.text.WritesAt edge sign name := by
  obtain ⟨_, _, found, isMatch, rfl, _, _, atSign⟩ := reported
  obtain ⟨_, region, isRegion, occurs, _⟩ := mem_allMatches_iff.mp isMatch
  exact ⟨region, isRegion,
    assigns.exists_writesAt (Pattern.matchesIn_of_mem_occurrences occurs) atSign⟩

/-- An assignment reported by both rules is in a script and follows a line comment. -/
theorem followsLineComment_of_reported
    (styled : ReportedUnder label text ⟨language, .style⟩ sign)
    (displayed : ReportedUnder label text ⟨language, .display⟩ sign) :
    language = .script ∧ language.FollowsLineComment text sign := by
  obtain ⟨region, isRegion, edge, name, notDisplay, writes⟩ :=
    styled.exists_writesAt assignsOnlyTo_stylePattern
  obtain ⟨other, isOther, otherEdge, _, rfl, otherWrites⟩ :=
    displayed.exists_writesAt (assignsOnlyTo_displayPattern language)
  rcases mem_regionsFor_cases isRegion with ⟨span, _, rfl⟩ | ⟨isFile, _⟩
  · rcases mem_regionsFor_cases isOther with ⟨otherSpan, _, rfl⟩ | ⟨isFile, rfl⟩
    · exact (notDisplay (writes.unique otherWrites).2).elim
    · refine ⟨?_, Language.followsLineComment_of_writesAt writes otherWrites notDisplay⟩
      cases language with
      | script => rfl
      | csharp | python | go => cases isFile
  · cases language <;> cases isFile

/--
In no region of a text is one assignment a match of the rule about styles and of the one
about the display. One that is reported by both is in a script, where a line comment ends
in front of the equals sign.
-/
theorem display_has_one_owner
    (language : Language)
    (label text : Text) :
    (∀ region, OwnedOnce language region) ∧
      ∀ sign,
        ReportedUnder label text ⟨language, .style⟩ sign →
        ReportedUnder label text ⟨language, .display⟩ sign →
        language = .script ∧ language.FollowsLineComment text sign :=
  ⟨ownedOnce language, fun _ => followsLineComment_of_reported⟩

/-! ## A comment in front of the sign -/

/-- What a rule finds in a region is reported, unless the receiver is read-only. -/
theorem reportedUnder_of_mem_occurrences
    {rule : Rule}
    {region : Region}
    {occurrence : Occurrence}
    (label : Text)
    (isRule : rule ∈ rule.language.rules)
    (isRegion : region ∈ regionsFor rule.language text rule)
    (occurs : occurrence ∈ rule.pattern.occurrences region.excerpt)
    (harmful :
      Receiver.isReadOnly (Receiver.chain region.text occurrence.offset region.start) = false)
    (atSign : occurrence.AssignsAt sign) :
    ReportedUnder label text rule sign := by
  let found : Match := {
    rule := rule
    occurrence := occurrence
    receiver := Receiver.chain region.text occurrence.offset region.start
  }
  have isMatch : found ∈ allMatches rule.language text :=
    mem_allMatches_iff.mpr ⟨isRule, region, isRegion, occurs, rfl⟩
  have offends : Offends rule.language text rule occurrence.offset :=
    ⟨isRule, region, isRegion, occurrence, occurs, rfl, harmful⟩
  have isReported :
      violationOf label text (text.splitOn '\n') found ∈
        (scan label text (some rule.language)).value :=
    mem_scan_iff.mpr ⟨rule, _, offends, violationOf_eq_reportOf isMatch⟩
  exact ⟨_, isReported, found, isMatch, rfl, harmful, rfl, atSign⟩

/-- A write to a display, with a comment that ends in the name of a style in front of its sign. -/
def commentedWrite : Text :=
  ".evaluate(a.display//.style\n='')"

/-- The comment makes two writes of one: to the display, and in the call to the style. -/
theorem not_hasOneOwner_of_line_comment :
    ¬ HasOneOwner "t.js" commentedWrite .script := by
  intro oneOwner
  have styled : ReportedUnder "t.js" commentedWrite ⟨.script, .style⟩ 28 := by
    refine @reportedUnder_of_mem_occurrences _ _ _ ⟨commentedWrite, 10, 31⟩ ⟨21, ".style\n="⟩
      "t.js" (by decide) (by decide +kernel) (by decide +kernel) (by decide +kernel) ?_
    exact ⟨7, .concat ".style\n", rfl⟩
  have displayed : ReportedUnder "t.js" commentedWrite ⟨.script, .display⟩ 28 := by
    refine @reportedUnder_of_mem_occurrences _ _ _
      (.whole (Language.mask .script commentedWrite)) ⟨11, ".display        \n='"⟩
      "t.js" (by decide) (List.mem_cons_self) (by decide +kernel) (by decide +kernel) ?_
    exact ⟨17, .before (.concat ".display        \n") (by decide : '=' ∉ ['\x27']), rfl⟩
  exact oneOwner.inReport 28 styled displayed

end TestAudit.Scan
