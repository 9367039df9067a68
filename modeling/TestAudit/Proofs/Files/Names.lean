import Mathlib.Data.List.Sort
import TestAudit.Files.Tree
import TestAudit.Proofs.Text.Order

namespace TestAudit.Tree

/-!
# Sorted names

The names of the entries of a kind are listed in code-point order, each once where the entries
have names of their own. In which order the entries are listed makes no difference.
-/

theorem pairwise_mergeSort_le
    (names : List Text) :
    (names.mergeSort Text.le).Pairwise fun first second => Text.le first second = true :=
  @List.pairwise_mergeSort _ Text.le (fun _ _ _ => Text.le_trans)
    (fun first second => Bool.or_eq_true_iff.mpr (Text.le_total first second)) names

variable {isKind : Text × Node → Bool} {entries : List (Text × Node)} {name : Text}

theorem mem_sortedNames_iff :
    name ∈ sortedNames isKind entries ↔
      ∃ node, (name, node) ∈ entries ∧ isKind (name, node) := by
  rw [sortedNames, List.mem_mergeSort]
  simp

theorem pairwise_sortedNames
    (different : (entries.map Prod.fst).Nodup) :
    (sortedNames isKind entries).Pairwise fun first second =>
      Text.le first second = true ∧ first ≠ second := by
  have kindDifferent : ((entries.filter isKind).map Prod.fst).Nodup :=
    different.sublist (List.filter_sublist.map Prod.fst)
  exact (pairwise_mergeSort_le _).and ((List.mergeSort_perm _ _).nodup_iff.mpr kindDifferent)

theorem sortedNames_eq_of_perm
    {listed : List (Text × Node)}
    (permuted : listed.Perm entries) :
    sortedNames isKind listed = sortedNames isKind entries := by
  have sameKind : ((listed.filter isKind).map Prod.fst).Perm
      ((entries.filter isKind).map Prod.fst) :=
    (permuted.filter isKind).map Prod.fst
  have sameNames : (sortedNames isKind listed).Perm (sortedNames isKind entries) :=
    (List.mergeSort_perm _ _).trans (sameKind.trans (List.mergeSort_perm _ _).symm)
  -- Two names that stand on both sides of each other are the same name.
  exact sameNames.eq_of_pairwise (fun _ _ _ _ => Text.le_antisymm)
    (pairwise_mergeSort_le _) (pairwise_mergeSort_le _)

end TestAudit.Tree
