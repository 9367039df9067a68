import Mathlib.Data.List.Induction
import Mathlib.Data.List.Nodup
import TestAudit.Distinct

namespace TestAudit

/-!
# Distinct elements and groups

Leaving out the elements whose key occurred before leaves every key once, and loses none;
element by element it keeps what is new. The groups of elements with the same key, one for
each of several different keys, hold every element with such a key once.
-/

variable {α κ : Type} [DecidableEq κ] {key : α → κ}

theorem mem_of_mem_distinctBy
    {items : List α}
    {item : α}
    (member : item ∈ distinctBy key items) :
    item ∈ items := by
  induction items with
  | nil => simp [distinctBy] at member
  | cons first others inductionHypothesis =>
      simp only [distinctBy, List.mem_cons, List.mem_filter] at member
      rcases member with rfl | ⟨inOthers, _⟩
      · simp
      · simp [inductionHypothesis inOthers]

/-- Every element has its key among the distinct ones. -/
theorem exists_mem_distinctBy
    {items : List α}
    {item : α}
    (member : item ∈ items) :
    ∃ chosen ∈ distinctBy key items, key chosen = key item := by
  induction items with
  | nil => simp at member
  | cons first others inductionHypothesis =>
      by_cases same : key item = key first
      · exact ⟨first, by simp [distinctBy], same.symm⟩
      · have inOthers : item ∈ others := by
          rcases List.mem_cons.mp member with rfl | inOthers
          · exact (same rfl).elim
          · exact inOthers
        obtain ⟨chosen, isChosen, sameKey⟩ := inductionHypothesis inOthers
        refine ⟨chosen, ?_, sameKey⟩
        simp [distinctBy, isChosen, sameKey, same]

/-- No two distinct elements have one key. -/
theorem pairwise_distinctBy
    (items : List α) :
    (distinctBy key items).Pairwise fun first second => key first ≠ key second := by
  induction items with
  | nil => exact .nil
  | cons first others inductionHypothesis =>
      refine .cons ?_ (inductionHypothesis.filter _)
      intro second member same
      have differs : (key second != key first) = true :=
        (List.mem_filter.mp member).2
      simp [same] at differs

/-- Distinct elements have different keys. -/
theorem nodup_map_distinctBy
    (key : α → κ)
    (items : List α) :
    ((distinctBy key items).map key).Nodup :=
  List.pairwise_map.mpr (pairwise_distinctBy items)

/-- Elements whose keys differ are distinct already. -/
theorem distinctBy_eq_self
    {items : List α}
    (different : (items.map key).Nodup) :
    distinctBy key items = items := by
  induction items with
  | nil => rfl
  | cons first others inductionHypothesis =>
      obtain ⟨isNew, othersDifferent⟩ := List.nodup_cons.mp different
      rw [distinctBy, inductionHypothesis othersDifferent]
      refine congrArg _ (List.filter_eq_self.mpr fun other member => ?_)
      have differs : key other ≠ key first := fun same => isNew (same ▸ List.mem_map_of_mem member)
      simpa using differs

/-- Of the elements behind others, those count whose key does not occur among the others. -/
theorem distinctBy_append
    (items others : List α) :
    distinctBy key (items ++ others) =
      distinctBy key items ++
        (distinctBy key others).filter fun other => key other ∉ items.map key := by
  induction items with
  | nil => simp [distinctBy]
  | cons first items inductionHypothesis =>
      rw [List.cons_append, distinctBy, distinctBy, inductionHypothesis, List.filter_append,
        List.filter_filter, List.cons_append]
      refine congrArg (fun rest => first :: (_ ++ rest)) (List.filter_congr fun other _ => ?_)
      by_cases same : key other = key first <;> simp [same]

theorem map_distinctBy_mem_iff
    {items : List α}
    {chosen : κ} :
    chosen ∈ (distinctBy key items).map key ↔ chosen ∈ items.map key := by
  constructor
  · rintro member
    obtain ⟨item, isDistinct, rfl⟩ := List.mem_map.mp member
    exact List.mem_map_of_mem (mem_of_mem_distinctBy isDistinct)
  · rintro member
    obtain ⟨item, isItem, rfl⟩ := List.mem_map.mp member
    obtain ⟨other, isDistinct, same⟩ := @exists_mem_distinctBy _ _ _ key _ _ isItem
    exact same ▸ List.mem_map_of_mem isDistinct

/-- Elements, and behind them those of others that have keys of their own. -/
def withNew (key : α → κ) (items others : List α) : List α :=
  items ++ others.filter fun other => key other ∉ items.map key

/-- The distinct elements of two lists are those of the first, and the new ones of the second. -/
theorem distinctBy_append_eq_withNew
    (items others : List α) :
    distinctBy key (items ++ others) =
      withNew key (distinctBy key items) (distinctBy key others) := by
  rw [distinctBy_append, withNew]
  refine congrArg (_ ++ ·) (List.filter_congr fun other _ => ?_)
  exact decide_eq_decide.mpr (not_congr map_distinctBy_mem_iff.symm)

/-- The elements of a list twice over are those of the list. -/
theorem distinctBy_append_self
    (items : List α) :
    distinctBy key (items ++ items) = distinctBy key items := by
  have noneIsNew :
      ((distinctBy key items).filter fun item => key item ∉ items.map key) = [] :=
    List.filter_eq_nil_iff.mpr fun item isDistinct isNew =>
      of_decide_eq_true isNew (List.mem_map_of_mem (mem_of_mem_distinctBy isDistinct))
  rw [distinctBy_append, noneIsNew, List.append_nil]

/-- One more element is kept when its key did not occur before. -/
def keepNew (key : α → κ) (kept : List α) (item : α) : List α :=
  if key item ∈ kept.map key then kept else kept ++ [item]

/-- The distinct elements are those that are kept one after the other. -/
theorem distinctBy_eq_foldl_keepNew
    (items : List α) :
    distinctBy key items = items.foldl (keepNew key) [] := by
  induction items using List.reverseRecOn with
  | nil => rfl
  | append_singleton items item inductionHypothesis =>
      rw [distinctBy_append, List.foldl_append, List.foldl_cons, List.foldl_nil,
        ← inductionHypothesis, keepNew]
      by_cases occurred : key item ∈ items.map key
      · rw [if_pos (map_distinctBy_mem_iff.mpr occurred)]
        simpa [distinctBy] using occurred
      · rw [if_neg (mt map_distinctBy_mem_iff.mp occurred)]
        simpa [distinctBy] using occurred

/-- The groups of different keys hold each element that has one of the keys once. -/
theorem perm_groups
    {keys : List κ}
    (different : keys.Nodup)
    (keyOf : α → Option κ)
    (items : List α) :
    (keys.flatMap fun chosen => items.filter (keyOf · = some chosen)).Perm
      (items.filter fun item => keys.any (keyOf item = some ·)) := by
  induction keys with
  | nil => simp
  | cons chosen others inductionHypothesis =>
      obtain ⟨isNew, othersDifferent⟩ := List.nodup_cons.mp different
      let grouped :=
        items.filter fun item => (chosen :: others).any (keyOf item = some ·)
      have chosenGroup :
          items.filter (keyOf · = some chosen) =
            grouped.filter (keyOf · = some chosen) := by
        rw [List.filter_filter]
        refine List.filter_congr fun item _ => ?_
        simp +contextual
      have otherGroups :
          (items.filter fun item => others.any (keyOf item = some ·)) =
            grouped.filter fun item => !decide (keyOf item = some chosen) := by
        rw [List.filter_filter]
        refine List.filter_congr fun item _ => ?_
        by_cases isChosen : keyOf item = some chosen
        · simpa [isChosen] using fun other member (same : chosen = other) => isNew (same ▸ member)
        · simp [isChosen]
      rw [List.flatMap_cons, chosenGroup]
      refine ((inductionHypothesis othersDifferent).append_left _).trans ?_
      rw [otherGroups]
      exact List.filter_append_perm _ grouped

end TestAudit
