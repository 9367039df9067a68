import TestAudit.Proofs.Source.Receiver

namespace TestAudit.Receiver

/-!
# Results of snapshot calls

The receivers that are read-only are those of one form: the name of a snapshot call as a word
of its own, its arguments in parentheses, and what leads on to a member. Blanks may stand
between these parts. The parentheses of the arguments are told by counting them.
-/

open Text

/-- The parts of a receiver that is the direct result of a snapshot call. -/
structure SnapshotResult
    (receiver front name before argument behind access last : Text) : Prop where
  shape :
    receiver =
      front ++ name ++ before ++ '(' :: argument ++ ')' :: (behind ++ access ++ last)
  isSnapshot : name ∈ snapshotCalls
  whole : front.getLast?.any isWord = false
  blankBefore : ∀ c ∈ before, isBlank c = true
  blankBehind : ∀ c ∈ behind, isBlank c = true
  blankLast : ∀ c ∈ last, isBlank c = true
  leadsOn : ∀ c ∈ access, c = '.' ∨ c = '?'
  sameCount : argument.count '(' = argument.count ')'
  noEndingOpens : ∀ back, back <:+ argument → back.count '(' ≤ back.count ')'

/-- A callee is a snapshot call when it is a name of one, blanks behind it aside. -/
theorem endsInSnapshotCall_iff_append
    {callee : Text} :
    endsInSnapshotCall callee = true ↔
      ∃ front name before,
        callee = front ++ name ++ before ∧
          name ∈ snapshotCalls ∧
          front.getLast?.any isWord = false ∧
          ∀ c ∈ before, isBlank c = true := by
  rw [endsInSnapshotCall_iff]
  constructor
  · rintro ⟨front, name, trimmed, isSnapshot, whole⟩
    obtain ⟨before, shape, areBlank⟩ := eq_dropEndWhile_append isBlank callee
    refine ⟨front, name, before, ?_, isSnapshot, whole, areBlank⟩
    rw [← trimmed]
    exact shape
  · rintro ⟨front, name, before, rfl, isSnapshot, whole, areBlank⟩
    refine ⟨front, name, ?_, isSnapshot, whole⟩
    obtain ⟨kept, last, rfl, notBlank⟩ := exists_last_of_mem_snapshotCalls isSnapshot
    rw [← List.append_assoc]
    exact dropEndWhile_append areBlank notBlank

/-- Just the direct results of snapshot calls are read-only. -/
theorem isReadOnly_iff_snapshotResult
    (receiver : Text) :
    isReadOnly receiver = true ↔
      ∃ front name before argument behind access last,
        SnapshotResult receiver front name before argument behind access last := by
  constructor
  · intro readOnly
    obtain ⟨callee, argument, behind, access, last, shape, balanced, blankBehind, leadsOn,
      blankLast, named⟩ := exists_call_of_isReadOnly readOnly
    obtain ⟨front, name, before, rfl, isSnapshot, whole, blankBefore⟩ :=
      endsInSnapshotCall_iff_append.mp named
    obtain ⟨sameCount, noEndingOpens⟩ := balanced_iff_count.mp balanced
    have dots : ∀ c ∈ access, c = '.' ∨ c = '?' := by
      simpa only [isAccess, Bool.or_eq_true, beq_iff_eq] using leadsOn
    exact ⟨front, name, before, argument, behind, access, last, shape, isSnapshot, whole,
      blankBefore, blankBehind, blankLast, dots, sameCount, noEndingOpens⟩
  · rintro ⟨front, name, before, argument, behind, access, last, result⟩
    have balanced : Balanced argument :=
      balanced_iff_count.mpr ⟨result.sameCount, result.noEndingOpens⟩
    have leadsOn : ∀ c ∈ access, isAccess c = true := by
      simpa only [isAccess, Bool.or_eq_true, beq_iff_eq] using result.leadsOn
    have named : endsInSnapshotCall (front ++ name ++ before) = true :=
      endsInSnapshotCall_iff_append.mpr
        ⟨front, name, before, rfl, result.isSnapshot, result.whole, result.blankBefore⟩
    rw [result.shape]
    exact isReadOnly_of_call balanced result.blankBehind leadsOn result.blankLast named

end TestAudit.Receiver
