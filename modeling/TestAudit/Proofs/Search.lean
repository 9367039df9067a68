import Mathlib.Data.List.Basic
import TestAudit.Proofs.Outcome

namespace TestAudit.Search

/-!
# Searches that may fail

A search looks at items one after the other and ends with the first that gives something, or
with the fault of the first that cannot be looked at. A selection looks at all of them.
-/

variable {ε α β : Type} {items : List α} {fault : ε}

/-- The item at which a search over images ends is the image of an item. -/
theorem exists_split_map_iff
    {change : α → β}
    {isBefore isEnd : β → Prop} :
    (∃ before image after, items.map change = before ++ image :: after ∧
        (∀ earlier ∈ before, isBefore earlier) ∧ isEnd image) ↔
      ∃ before item after, items = before ++ item :: after ∧
        (∀ earlier ∈ before, isBefore (change earlier)) ∧ isEnd (change item) := by
  constructor
  · rintro ⟨front, image, back, split, areBefore, ends⟩
    obtain ⟨before, behind, rfl, rfl, onward⟩ := List.map_eq_append_iff.mp split
    obtain ⟨item, after, rfl, rfl, _⟩ := List.map_eq_cons_iff.mp onward
    exact ⟨before, item, after, rfl, List.forall_mem_map.mp areBefore, ends⟩
  · rintro ⟨before, item, after, rfl, areBefore, ends⟩
    exact ⟨before.map change, change item, after.map change, List.map_append,
      List.forall_mem_map.mpr areBefore, ends⟩

/-! ## The first item that gives something -/

section First

variable {look other : α → Except ε (Option β)}

theorem findSomeM?_eq_some_iff
    {found : β} :
    items.findSomeM? look = .ok (some found) ↔
      ∃ before item after, items = before ++ item :: after ∧
        (∀ earlier ∈ before, look earlier = .ok none) ∧ look item = .ok (some found) := by
  induction items with
  | nil => exact iff_of_false nofun (by rintro ⟨_ | _, _, _, ⟨⟩, _⟩)
  | cons first others inductionHypothesis =>
      rw [List.findSomeM?_cons, Outcome.bind_eq_ok_iff]
      constructor
      · rintro ⟨_ | seen, looks, goesOn⟩
        · obtain ⟨before, item, after, rfl, areOut, isFound⟩ := inductionHypothesis.mp goesOn
          exact ⟨first :: before, item, after, rfl,
            List.forall_mem_cons.mpr ⟨looks, areOut⟩, isFound⟩
        · cases goesOn
          exact ⟨[], first, others, rfl, List.forall_mem_nil _, looks⟩
      · rintro ⟨_ | ⟨earlier, before⟩, item, after, same, areOut, isFound⟩
        · cases same
          exact ⟨some found, isFound, rfl⟩
        · cases same
          obtain ⟨isOut, othersOut⟩ := List.forall_mem_cons.mp areOut
          exact ⟨none, isOut,
            inductionHypothesis.mpr ⟨before, item, after, rfl, othersOut, isFound⟩⟩

theorem findSomeM?_eq_none_iff :
    items.findSomeM? look = .ok none ↔ ∀ item ∈ items, look item = .ok none := by
  induction items with
  | nil => exact iff_of_true rfl (List.forall_mem_nil _)
  | cons first others inductionHypothesis =>
      rw [List.findSomeM?_cons, Outcome.bind_eq_ok_iff, List.forall_mem_cons,
        ← inductionHypothesis]
      constructor
      · rintro ⟨_ | seen, looks, goesOn⟩
        · exact ⟨looks, goesOn⟩
        · cases goesOn
      · exact fun ⟨isOut, goesOn⟩ => ⟨none, isOut, goesOn⟩

theorem findSomeM?_eq_error_iff :
    items.findSomeM? look = .error fault ↔
      ∃ before item after, items = before ++ item :: after ∧
        (∀ earlier ∈ before, look earlier = .ok none) ∧ look item = .error fault := by
  induction items with
  | nil => exact iff_of_false nofun (by rintro ⟨_ | _, _, _, ⟨⟩, _⟩)
  | cons first others inductionHypothesis =>
      rw [List.findSomeM?_cons, Outcome.bind_eq_error_iff]
      constructor
      · rintro (fails | ⟨_ | seen, looks, goesOn⟩)
        · exact ⟨[], first, others, rfl, List.forall_mem_nil _, fails⟩
        · obtain ⟨before, item, after, rfl, areOut, fails⟩ := inductionHypothesis.mp goesOn
          exact ⟨first :: before, item, after, rfl,
            List.forall_mem_cons.mpr ⟨looks, areOut⟩, fails⟩
        · cases goesOn
      · rintro ⟨_ | ⟨earlier, before⟩, item, after, same, areOut, fails⟩
        · cases same
          exact Or.inl fails
        · cases same
          obtain ⟨isOut, othersOut⟩ := List.forall_mem_cons.mp areOut
          exact Or.inr
            ⟨none, isOut, inductionHypothesis.mpr ⟨before, item, after, rfl, othersOut, fails⟩⟩

/-- A search that ends well ends so wherever the items that could be looked at look the same. -/
theorem findSomeM?_of_agree
    {found : Option β}
    (agree : ∀ item ∈ items, ∀ seen, look item = .ok seen → other item = .ok seen)
    (isFound : items.findSomeM? look = .ok found) :
    items.findSomeM? other = .ok found := by
  induction items with
  | nil => exact isFound
  | cons first others inductionHypothesis =>
      obtain ⟨firstAgrees, othersAgree⟩ := List.forall_mem_cons.mp agree
      rw [List.findSomeM?_cons, Outcome.bind_eq_ok_iff] at isFound ⊢
      obtain ⟨seen, looks, goesOn⟩ := isFound
      refine ⟨seen, firstAgrees seen looks, ?_⟩
      cases seen with
      | none => exact inductionHypothesis othersAgree goesOn
      | some _ => exact goesOn

end First

/-! ## The first item that passes a check -/

section Checks

variable {check other : α → Except ε Bool}

/-- What a check lets through. -/
def checked (check : α → Except ε Bool) (item : α) : Except ε (Option α) := do
  return if ← check item then some item else none

theorem checked_eq_some_iff
    {item passed : α} :
    checked check item = .ok (some passed) ↔ check item = .ok true ∧ item = passed := by
  rw [checked]
  rcases check item with fault | _ | _
  · exact iff_of_false nofun nofun
  · exact iff_of_false nofun nofun
  · constructor
    · rintro ⟨⟩
      exact ⟨rfl, rfl⟩
    · rintro ⟨_, rfl⟩
      rfl

theorem checked_eq_none_iff
    {item : α} :
    checked check item = .ok none ↔ check item = .ok false := by
  rw [checked]
  rcases check item with fault | _ | _
  · exact iff_of_false nofun nofun
  · exact iff_of_true rfl rfl
  · exact iff_of_false nofun nofun

theorem findM?_eq_some_iff
    {item : α} :
    items.findM? check = .ok (some item) ↔
      ∃ before after, items = before ++ item :: after ∧
        (∀ earlier ∈ before, check earlier = .ok false) ∧ check item = .ok true := by
  rw [List.findM?_eq_findSomeM?]
  change items.findSomeM? (checked check) = _ ↔ _
  simp only [findSomeM?_eq_some_iff, checked_eq_some_iff, checked_eq_none_iff]
  constructor
  · rintro ⟨before, _, after, places, areOut, passes, rfl⟩
    exact ⟨before, after, places, areOut, passes⟩
  · rintro ⟨before, after, places, areOut, passes⟩
    exact ⟨before, item, after, places, areOut, passes, rfl⟩

/-- What a search over images finds is the image of an item, and passes the check. -/
theorem exists_of_findM?_map
    {change : β → α}
    {sources : List β}
    {found : α}
    (isFound : (sources.map change).findM? check = .ok (some found)) :
    ∃ source ∈ sources, change source = found ∧ check found = .ok true := by
  obtain ⟨before, after, split, _, passes⟩ := findM?_eq_some_iff.mp isFound
  have member : found ∈ sources.map change := by
    rw [split]
    exact List.mem_append_right before List.mem_cons_self
  obtain ⟨source, isSource, isImage⟩ := List.mem_map.mp member
  exact ⟨source, isSource, isImage, passes⟩

theorem findM?_of_agree
    {found : Option α}
    (agree : ∀ item ∈ items, ∀ passes, check item = .ok passes → other item = .ok passes)
    (isFound : items.findM? check = .ok found) :
    items.findM? other = .ok found := by
  rw [List.findM?_eq_findSomeM?] at isFound ⊢
  refine findSomeM?_of_agree (fun item member seen looks => ?_) isFound
  obtain ⟨passes, isChecked, isSeen⟩ := Outcome.bind_eq_ok_iff.mp looks
  exact Outcome.bind_eq_ok_iff.mpr ⟨passes, agree item member passes isChecked, isSeen⟩

/-! ## All items that pass a check -/

theorem filterAuxM_eq_ok_iff
    {kept found : List α} :
    items.filterAuxM check kept = .ok found ↔
      (∀ item ∈ items, ∃ passes, check item = .ok passes) ∧
        found = (items.filter fun item => (check item).toOption == some true).reverse ++ kept := by
  induction items generalizing kept with
  | nil =>
      rw [List.filterAuxM]
      simp [pure, Except.pure, eq_comm]
  | cons first others inductionHypothesis =>
      rw [List.filterAuxM, Outcome.bind_eq_ok_iff, List.forall_mem_cons, List.filter_cons]
      constructor
      · rintro ⟨passes, isChecked, goesOn⟩
        obtain ⟨areChecked, rfl⟩ := inductionHypothesis.mp goesOn
        refine ⟨⟨⟨passes, isChecked⟩, areChecked⟩, ?_⟩
        rw [isChecked]
        cases passes <;> simp [Except.toOption]
      · rintro ⟨⟨⟨passes, isChecked⟩, areChecked⟩, rfl⟩
        refine ⟨passes, isChecked, inductionHypothesis.mpr ⟨areChecked, ?_⟩⟩
        rw [isChecked]
        cases passes <;> simp [Except.toOption]

theorem filterAuxM_eq_error_iff
    {kept : List α} :
    items.filterAuxM check kept = .error fault ↔
      ∃ before item after, items = before ++ item :: after ∧
        (∀ earlier ∈ before, ∃ passes, check earlier = .ok passes) ∧
          check item = .error fault := by
  induction items generalizing kept with
  | nil => exact iff_of_false nofun (by rintro ⟨_ | _, _, _, ⟨⟩, _⟩)
  | cons first others inductionHypothesis =>
      rw [List.filterAuxM, Outcome.bind_eq_error_iff]
      constructor
      · rintro (fails | ⟨passes, isChecked, goesOn⟩)
        · exact ⟨[], first, others, rfl, List.forall_mem_nil _, fails⟩
        · obtain ⟨before, item, after, rfl, areChecked, fails⟩ := inductionHypothesis.mp goesOn
          exact ⟨first :: before, item, after, rfl,
            List.forall_mem_cons.mpr ⟨⟨passes, isChecked⟩, areChecked⟩, fails⟩
      · rintro ⟨_ | ⟨earlier, before⟩, item, after, same, areChecked, fails⟩
        · cases same
          exact Or.inl fails
        · cases same
          obtain ⟨⟨passes, isChecked⟩, othersChecked⟩ := List.forall_mem_cons.mp areChecked
          exact Or.inr ⟨passes, isChecked,
            inductionHypothesis.mpr ⟨before, item, after, rfl, othersChecked, fails⟩⟩

/-- The checks of all items succeed together. -/
theorem filterM_eq_ok_iff
    {found : List α} :
    items.filterM check = .ok found ↔
      (∀ item ∈ items, ∃ passes, check item = .ok passes) ∧
        found = items.filter fun item => (check item).toOption == some true := by
  rw [List.filterM, Outcome.bind_eq_ok_iff]
  simp only [filterAuxM_eq_ok_iff, List.append_nil]
  constructor
  · rintro ⟨_, ⟨areChecked, rfl⟩, ⟨⟩⟩
    exact ⟨areChecked, List.reverse_reverse _⟩
  · rintro ⟨areChecked, rfl⟩
    exact ⟨_, ⟨areChecked, rfl⟩, congrArg Except.ok (List.reverse_reverse _)⟩

theorem filterM_eq_error_iff :
    items.filterM check = .error fault ↔
      ∃ before item after, items = before ++ item :: after ∧
        (∀ earlier ∈ before, ∃ passes, check earlier = .ok passes) ∧
          check item = .error fault := by
  rw [List.filterM, Outcome.bind_pure_eq_error_iff, filterAuxM_eq_error_iff]

end Checks

end TestAudit.Search
