import TestAudit.Proofs.Finding.Scan
import TestAudit.Proofs.Source.CallSpan
import TestAudit.Proofs.Source.Snapshot

namespace TestAudit.Scan

/-!
# Matches that are passed over

A match in the arguments of a call is passed over when its receiver is read-only. The
receiver is told by counting parentheses, those in literals included, so a match may be
passed over whose receiver is no snapshot call. Where no literal of the receiver holds a
parenthesis, and no dollar sign precedes the name, only snapshot calls are passed over.
-/

/-- Every match in the arguments of a call whose receiver is no snapshot call is reported. -/
def AllowListSound (label text : Text) (language : Language) : Prop :=
  ∀ span ∈ language.callSpans text CallSpan.defaultWindow,
    ∀ rule ∈ language.rules,
      ∀ occurrence ∈ rule.pattern.occurrences (span.region text).excerpt,
        (¬ ∃ opening closing,
          language.SnapshotCall text occurrence.offset opening closing) →
        Receiver.isReadOnly (Receiver.chain text occurrence.offset span.start) = false ∧
          ∃ violation ∈ (scan label text (some language)).value,
            violation.line = lineNumber text occurrence.offset ∧ violation.id = rule.id

variable {language : Language} {label text : Text}

/-- A receiver in the arguments of a call is read-only just when it is a counted snapshot. -/
theorem isReadOnly_iff_of_mem_callSpans
    {window offset : Nat}
    {span : CallSpan}
    (member : span ∈ language.callSpans text window)
    (after : span.start ≤ offset) :
    Receiver.isReadOnly (Receiver.chain text offset span.start) = true ↔
      ∃ front name argument access,
        Receiver.CountedSnapshot text span.start offset front name argument access := by
  have opens := ((language.foundFrom_callSpans text window).of_mem member).1
  have positive : 0 < span.start := Nat.lt_of_le_of_lt (Nat.zero_le _) opens.bounds.1
  exact Receiver.isReadOnly_chain_iff opens.getElem?_pred_start positive after

/--
The allow-list is sound for a text exactly when each match on a counted snapshot is a
match on a snapshot call; it is one when all parentheses of the counted snapshot are code
of its argument and no dollar sign precedes the name.
-/
theorem allowListSound_iff
    (label text : Text)
    (language : Language) :
    (AllowListSound label text language ↔
      ∀ span ∈ language.callSpans text CallSpan.defaultWindow,
        ∀ rule ∈ language.rules,
          ∀ occurrence ∈ rule.pattern.occurrences (span.region text).excerpt,
            ∀ front name argument access,
              Receiver.CountedSnapshot text span.start occurrence.offset
                front name argument access →
              ∃ opening closing,
                language.SnapshotCall text occurrence.offset opening closing) ∧
      ∀ span ∈ language.callSpans text CallSpan.defaultWindow,
        ∀ offset front name argument access,
          offset ≤ text.length →
          Receiver.CountedSnapshot text span.start offset front name argument access →
          front.getLast? ≠ some '$' →
          let opening := span.start + (front ++ name).length
          language.ParenthesesAreCode text (opening + 1) (opening + 1 + argument.length) →
          language.SnapshotCall text offset opening (opening + 1 + argument.length) := by
  refine ⟨⟨?_, ?_⟩, ?_⟩
  · intro sound span member rule isRule occurrence occurs front name argument access counted
    have bounds := Pattern.offset_of_mem_occurrences occurs
    have readOnly :=
      (isReadOnly_iff_of_mem_callSpans member bounds.1).mpr
        ⟨front, name, argument, access, counted⟩
    apply Classical.byContradiction
    intro noSnapshot
    have reported := (sound span member rule isRule occurrence occurs noSnapshot).1
    rw [readOnly] at reported
    cases reported
  · intro snapshots span member rule isRule occurrence occurs noSnapshot
    have bounds := Pattern.offset_of_mem_occurrences occurs
    have harmful :
        Receiver.isReadOnly (Receiver.chain text occurrence.offset span.start) = false := by
      cases readOnly :
          Receiver.isReadOnly (Receiver.chain text occurrence.offset span.start) with
      | false => rfl
      | true =>
          obtain ⟨front, name, argument, access, counted⟩ :=
            (isReadOnly_iff_of_mem_callSpans member bounds.1).mp readOnly
          exact (noSnapshot
            (snapshots span member rule isRule occurrence occurs front name argument access
              counted)).elim
    refine ⟨harmful, exists_mem_scan_of_offends label ?_⟩
    exact ⟨isRule, span.region text, region_mem_regionsFor rule member, occurrence, occurs,
      rfl, harmful⟩
  · intro span member offset front name argument access within counted noDollar opening areCode
    have opens :=
      ((language.foundFrom_callSpans text CallSpan.defaultWindow).of_mem member).1
    have positive : 0 < span.start := Nat.lt_of_le_of_lt (Nat.zero_le _) opens.bounds.1
    exact Language.snapshotCall_of_counted opens.getElem?_pred_start positive within counted
      noDollar areCode

/--
The parenthesis in a string is counted as one: a write to what `find` returns is passed
over, although `getComputedStyle` is closed only behind it.
-/
theorem not_allowListSound_of_quoted_parenthesis :
    ¬ AllowListSound "t.js" "page.evaluate(getComputedStyle(find(')').style.color = 1))"
        .script := by
  intro sound
  have noSnapshot :
      ¬ ∃ opening closing,
        Language.SnapshotCall .script
          "page.evaluate(getComputedStyle(find(')').style.color = 1))" 40 opening closing := by
    rintro ⟨opening, closing, snapshot⟩
    have closingAt : closing = 39 := by
      have before := snapshot.before
      apply Classical.byContradiction
      intro other
      obtain ⟨c, here, leadsOn⟩ := snapshot.leadsOn 39 (by omega) (by omega)
      obtain rfl : ')' = c := Option.some.inj here
      rcases leadsOn with isAccess | isBlank
      · cases isAccess
      · cases isBlank
    have openingAt : opening = 30 := by
      have onlyName :
          ∀ offset < 58,
            Language.calleeName
                ("page.evaluate(getComputedStyle(find(')').style.color = 1))".toList.take
                  offset) ∈
              Receiver.snapshotCalls →
            offset = 30 := by
        decide
      have within := (List.getElem?_eq_some_iff.mp snapshot.opened).1
      exact onlyName opening within snapshot.isSnapshot
    subst closingAt openingAt
    have farther :
        Language.Closes .script "page.evaluate(getComputedStyle(find(')').style.color = 1))"
          1 31 56 :=
      (@Language.closes_of_closingDistance? .script _ 100 0 31 25 (by decide)).1
    have same := snapshot.closes.unique farther
    omega
  have reported :=
    (sound ⟨4, 14, 57, false⟩ (by decide) ⟨.script, .style⟩ (by decide)
      ⟨40, ".style.color ="⟩ (by decide) noSnapshot).1
  revert reported
  decide

end TestAudit.Scan
