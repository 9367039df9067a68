import TestAudit.Proofs.Pattern.Occurrence
import TestAudit.Rule.Catalog

namespace TestAudit

/-!
# Properties of the rules

What a rule matches begins with a character that is not blank, and the rules of
one language have different identifiers. Rules of one identifier are equally grave, in
whatever languages they are.
-/

/-- A match of any rule begins with a character that is not blank. -/
theorem Rule.pattern_isSolid
    (rule : Rule) :
    rule.pattern.isSolid = true := by
  rcases rule with ⟨language, kind⟩
  cases kind <;> cases language <;> decide

theorem MutationKind.id_injective
    {kind other : MutationKind}
    (same : kind.id = other.id) :
    kind = other := by
  revert same
  cases kind <;> cases other <;> decide

theorem Rule.eq_of_id_eq
    {language : Language}
    {rule other : Rule}
    (isRule : rule ∈ language.rules)
    (isOther : other ∈ language.rules)
    (same : rule.id = other.id) :
    rule = other := by
  obtain ⟨kind, _, rfl⟩ := List.mem_map.mp isRule
  obtain ⟨otherKind, _, rfl⟩ := List.mem_map.mp isOther
  have sameKind : kind = otherKind :=
    MutationKind.id_injective (List.append_cancel_left same)
  rw [sameKind]

theorem Rule.severity_eq_of_id_eq
    {rule other : Rule}
    (same : rule.id = other.id) :
    rule.severity = other.severity := by
  have eachPair :
      ∀ first ∈ Language.all, ∀ second ∈ Language.all,
        ∀ kind ∈ Language.script.mutationKinds, ∀ otherKind ∈ Language.script.mutationKinds,
          Rule.id ⟨first, kind⟩ = Rule.id ⟨second, otherKind⟩ →
          kind.severity = otherKind.severity := by
    decide +kernel
  have isLanguage (language : Language) : language ∈ Language.all := by
    cases language <;> decide
  have isKind (kind : MutationKind) : kind ∈ Language.script.mutationKinds := by
    cases kind <;> decide
  exact eachPair _ (isLanguage rule.language) _ (isLanguage other.language)
    _ (isKind rule.kind) _ (isKind other.kind) same

end TestAudit
