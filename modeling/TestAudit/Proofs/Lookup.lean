import Mathlib.Data.List.Nodup

namespace TestAudit.Lookup

/-!
# Looking up keys

The entry of a key in a list is the first one with that key. Where keys differ it is the only
one, so looking up a key and being an entry are the same.
-/

variable {κ α : Type} [BEq κ] [LawfulBEq κ] [DecidableEq κ]
variable {key known : κ} {value : α} {entries : List (κ × α)}

theorem lookup_cons
    (key known : κ)
    (value : α)
    (entries : List (κ × α)) :
    List.lookup key ((known, value) :: entries) =
      if key = known then some value else entries.lookup key := by
  by_cases same : key = known
  · rw [same, List.lookup_cons_self, if_pos rfl]
  · rw [List.lookup_cons, beq_false_of_ne same, if_neg same]

theorem lookup_eq_none_iff :
    entries.lookup key = none ↔ key ∉ entries.map Prod.fst := by
  induction entries with
  | nil => exact iff_of_true rfl List.not_mem_nil
  | cons entry others inductionHypothesis =>
      obtain ⟨known, value⟩ := entry
      rw [lookup_cons, List.map_cons, List.mem_cons, not_or, ← inductionHypothesis]
      by_cases same : key = known <;> simp [same]

omit [DecidableEq κ] in
theorem mem_of_lookup
    (found : entries.lookup key = some value) :
    (key, value) ∈ entries := by
  obtain ⟨before, after, rfl, _⟩ := List.lookup_eq_some_iff.mp found
  exact List.mem_append_right before List.mem_cons_self

/-- Where keys differ, each entry is the one of its key. -/
theorem lookup_eq_some_iff_mem
    (different : (entries.map Prod.fst).Nodup) :
    entries.lookup key = some value ↔ (key, value) ∈ entries := by
  refine ⟨mem_of_lookup, fun member => ?_⟩
  have notNone : entries.lookup key ≠ none :=
    fun absent => lookup_eq_none_iff.mp absent (List.mem_map_of_mem member)
  obtain ⟨other, found⟩ := Option.ne_none_iff_exists'.mp notNone
  have same := List.inj_on_of_nodup_map different (mem_of_lookup found) member rfl
  rw [found, (Prod.mk.inj same).2]

/-- Where keys differ, it does not matter in which order the entries stand. -/
theorem lookup_eq_of_perm
    {others : List (κ × α)}
    (different : (entries.map Prod.fst).Nodup)
    (permuted : others.Perm entries) :
    others.lookup key = entries.lookup key := by
  have othersDifferent := (permuted.map Prod.fst).nodup_iff.mpr different
  refine Option.ext fun value => ?_
  rw [lookup_eq_some_iff_mem othersDifferent, lookup_eq_some_iff_mem different,
    permuted.mem_iff]

theorem lookup_map_values
    (change : κ → α → α)
    (entries : List (κ × α)) :
    (entries.map fun entry => (entry.1, change entry.1 entry.2)).lookup key =
      (entries.lookup key).map (change key) := by
  induction entries with
  | nil => rfl
  | cons entry others inductionHypothesis =>
      obtain ⟨known, value⟩ := entry
      rw [List.map_cons, lookup_cons, lookup_cons, inductionHypothesis]
      by_cases same : key = known <;> simp [same]

theorem lookup_filter_of_kept
    (keeps : κ → Bool)
    (isKept : keeps key = true) :
    (entries.filter fun entry => keeps entry.1).lookup key = entries.lookup key := by
  induction entries with
  | nil => rfl
  | cons entry others inductionHypothesis =>
      obtain ⟨known, value⟩ := entry
      rw [List.filter_cons, lookup_cons]
      split
      · rw [lookup_cons, inductionHypothesis]
      next dropped =>
        have differs : key ≠ known := by
          rintro rfl
          exact dropped isKept
        rw [if_neg differs, inductionHypothesis]

end TestAudit.Lookup
