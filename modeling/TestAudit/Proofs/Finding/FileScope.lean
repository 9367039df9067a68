import TestAudit.Proofs.Finding.Scan
import TestAudit.Proofs.Source.Masking

namespace TestAudit

/-!
# Findings about whole files

A rule about whole files is searched for in the masked text and in the arguments of
calls. What masking leaves of a comment or a string begins no match, since no rule
matches a blank or a quote first. So a finding outside of all calls is in code, and
neither a comment nor a string there is ever reported.
-/

/-- What a match of a rule begins with can neither begin nor end a string. -/
theorem Rule.pattern_beginsIn
    (rule : Rule) :
    rule.pattern.beginsIn
        (·.consistsOf fun c => !Text.isBlank c && !Language.isStringHead c) = true := by
  rcases rule with ⟨language, kind⟩
  cases kind <;> cases language <;> decide

namespace Scan

/-- A rule offends in the masked text, at a place that is code of the text. -/
def OffendsInCode (language : Language) (text : Text) (rule : Rule) (offset : Nat) : Prop :=
  language.Code text offset ∧ OffendsIn rule (Region.whole (language.mask text)) offset

/-- A rule offends in the arguments of a call. -/
def OffendsInCall (language : Language) (text : Text) (rule : Rule) (offset : Nat) : Prop :=
  ∃ span ∈ language.callSpans text CallSpan.defaultWindow,
    span.start ≤ offset ∧ offset < span.stop ∧ OffendsIn rule (span.region text) offset

variable {language : Language} {label text : Text} {rule : Rule} {offset : Nat}

/-- What a rule matches in a masked text begins in code. -/
theorem code_of_mem_occurrences
    {occurrence : Occurrence}
    (member :
      occurrence ∈ rule.pattern.occurrences (Region.whole (language.mask text)).excerpt) :
    language.Code text occurrence.offset := by
  obtain ⟨c, here, plain⟩ :=
    Pattern.getElem?_of_mem_occurrences_of_beginsIn rule.pattern_beginsIn member
  rw [Bool.and_eq_true, Bool.not_eq_true', Bool.not_eq_true'] at plain
  exact Language.code_of_getElem?_mask here plain.1 plain.2

/-- A rule about whole files offends in code or in a call, and nowhere else. -/
theorem offends_iff_of_file
    (isRule : rule ∈ language.rules)
    (aboutFiles : rule.scope = .file) :
    Offends language text rule offset ↔
      OffendsInCode language text rule offset ∨ OffendsInCall language text rule offset := by
  unfold Offends regionsFor
  rw [aboutFiles]
  constructor
  · rintro ⟨_, region, isRegion, offends⟩
    obtain ⟨occurrence, occurs, rfl, harmful⟩ := offends
    rcases List.mem_cons.mp isRegion with rfl | isCall
    · exact Or.inl ⟨code_of_mem_occurrences occurs, occurrence, occurs, rfl, harmful⟩
    · obtain ⟨span, member, rfl⟩ := List.mem_map.mp isCall
      have within := Pattern.offset_of_mem_occurrences occurs
      exact Or.inr ⟨span, member, within.1, within.2.1, occurrence, occurs, rfl, harmful⟩
  · rintro (⟨_, offends⟩ | ⟨span, member, _, _, offends⟩)
    · exact ⟨isRule, _, List.mem_cons_self, offends⟩
    · exact ⟨isRule, _, List.mem_cons_of_mem _ (List.mem_map_of_mem member), offends⟩

/--
Each violation belongs to a rule, and one about whole files is reported on exactly the
lines where it offends in code or in the arguments of a call.
-/
theorem fileRules_reported_in_code_or_call
    (label text : Text)
    (language : Option Language) :
    (∀ violation ∈ (scan label text language).value,
        ∃ spoken rule,
          language = some spoken ∧ rule ∈ spoken.rules ∧ violation.id = rule.id ∧
            (rule.scope = .file →
              ∃ offset,
                violation.line = lineNumber text offset ∧
                  (OffendsInCode spoken text rule offset ∨
                    OffendsInCall spoken text rule offset))) ∧
      ∀ spoken rule offset,
        language = some spoken →
        rule ∈ spoken.rules →
        rule.scope = .file →
        OffendsInCode spoken text rule offset ∨ OffendsInCall spoken text rule offset →
        ∃ violation ∈ (scan label text language).value,
          violation.line = lineNumber text offset ∧ violation.id = rule.id := by
  constructor
  · intro violation member
    cases language with
    | none => cases member
    | some spoken =>
        obtain ⟨rule, offset, offends, onLine, ofRule⟩ :=
          exists_mem_violationsOf_iff.mp ⟨violation, member, rfl, rfl⟩
        refine ⟨spoken, rule, rfl, offends.1, ofRule, ?_⟩
        intro aboutFiles
        refine ⟨offset, ?_, (offends_iff_of_file offends.1 aboutFiles).mp offends⟩
        rw [onLine, lineNumber]
        omega
  · rintro spoken rule offset rfl isRule aboutFiles offends
    exact exists_mem_scan_of_offends label ((offends_iff_of_file isRule aboutFiles).mpr offends)

end Scan

end TestAudit
