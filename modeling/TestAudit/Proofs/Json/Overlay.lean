import TestAudit.Proofs.Json.Member
import TestAudit.Proofs.Lookup

namespace TestAudit.Json

/-!
# Members laid over others

Members with names are laid over others: a name of both keeps its place among the first and
has the value of the second, and new names follow in the order of the second. Setting a member
of what is laid over sets it in the whole.
-/

variable {α : Type} {name : Text} {value : α} {first second members : List (Text × α)}

/-! ## Setting a member -/

theorem lookup_setMember
    (name other : Text)
    (value : α)
    (members : List (Text × α)) :
    (setMember name value members).lookup other =
      if other = name then some value else members.lookup other := by
  induction members with
  | nil => exact Lookup.lookup_cons other name value []
  | cons member others inductionHypothesis =>
      obtain ⟨known, old⟩ := member
      rw [Lookup.lookup_cons]
      by_cases same : known = name
      · subst same
        rw [setMember, if_pos rfl, Lookup.lookup_cons]
        by_cases isName : other = known <;> simp [isName]
      · rw [setMember, if_neg same, Lookup.lookup_cons, inductionHypothesis]
        by_cases isKnown : other = known
        · simp [isKnown, same]
        · simp [isKnown]

theorem setMember_append_of_mem
    (member : name ∈ first.map Prod.fst) :
    setMember name value (first ++ second) = setMember name value first ++ second := by
  induction first with
  | nil => cases member
  | cons known others inductionHypothesis =>
      rw [List.cons_append, setMember, setMember]
      split
      · rfl
      next other =>
        rw [List.map_cons, List.mem_cons] at member
        have inOthers := member.resolve_left (Ne.symm other)
        rw [inductionHypothesis inOthers, List.cons_append]

theorem setMember_append_of_not_mem
    (isNew : name ∉ first.map Prod.fst) :
    setMember name value (first ++ second) = first ++ setMember name value second := by
  induction first with
  | nil => rfl
  | cons known others inductionHypothesis =>
      rw [List.map_cons, List.mem_cons, not_or] at isNew
      rw [List.cons_append, setMember, if_neg (Ne.symm isNew.1), inductionHypothesis isNew.2,
        List.cons_append]

theorem filter_setMember_of_kept
    {keeps : Text → Bool}
    (isKept : keeps name = true) :
    ((setMember name value members).filter fun member => keeps member.1) =
      setMember name value (members.filter fun member => keeps member.1) := by
  induction members with
  | nil => simp [setMember, isKept]
  | cons member others inductionHypothesis =>
      rw [setMember]
      by_cases same : member.1 = name
      · simp [same, isKept, setMember]
      · rw [if_neg same, List.filter_cons, List.filter_cons, inductionHypothesis]
        split
        · rw [setMember, if_neg same]
        · rfl

theorem filter_setMember_of_dropped
    {keeps : Text → Bool}
    (isDropped : keeps name = false) :
    ((setMember name value members).filter fun member => keeps member.1) =
      members.filter fun member => keeps member.1 := by
  induction members with
  | nil => simp [setMember, isDropped]
  | cons member others inductionHypothesis =>
      rw [setMember]
      by_cases same : member.1 = name
      · simp [same, isDropped]
      · rw [if_neg same, List.filter_cons, List.filter_cons, inductionHypothesis]

/-! ## Laying over -/

/-- The members with the values that others give to their names. -/
def revalued (first second : List (Text × α)) : List (Text × α) :=
  first.map fun member => (member.1, (second.lookup member.1).getD member.2)

/-- Members with other members laid over them. -/
def overlaid (first second : List (Text × α)) : List (Text × α) :=
  revalued first second ++ second.filter fun member => member.1 ∉ first.map Prod.fst

theorem map_fst_revalued
    (first second : List (Text × α)) :
    (revalued first second).map Prod.fst = first.map Prod.fst := by
  rw [revalued, List.map_map]
  rfl

theorem overlaid_nil
    (first : List (Text × α)) :
    overlaid first [] = first := by
  simp [overlaid, revalued]

/-- A name has the value that was laid over it, or else the one that it had. -/
theorem lookup_overlaid_eq_or
    (first second : List (Text × α))
    (name : Text) :
    (overlaid first second).lookup name = (second.lookup name).or (first.lookup name) := by
  rw [overlaid, List.lookup_append, revalued,
    Lookup.lookup_map_values (fun name value => (second.lookup name).getD value)]
  cases known : first.lookup name with
  | some old => cases second.lookup name <;> rfl
  | none =>
      have isNew := decide_eq_true (Lookup.lookup_eq_none_iff.mp known)
      rw [Option.map_none, Option.none_or, Option.or_none]
      exact Lookup.lookup_filter_of_kept (fun name => decide (name ∉ first.map Prod.fst)) isNew

/-- A name that is laid over has the value that was laid over it. -/
theorem lookup_overlaid
    (member : name ∈ second.map Prod.fst) :
    (overlaid first second).lookup name = second.lookup name := by
  have notNone : second.lookup name ≠ none :=
    fun absent => Lookup.lookup_eq_none_iff.mp absent member
  obtain ⟨value, found⟩ := Option.ne_none_iff_exists'.mp notNone
  rw [lookup_overlaid_eq_or, found, Option.some_or]

theorem revalued_setMember_of_mem
    (different : (first.map Prod.fst).Nodup)
    (member : name ∈ first.map Prod.fst)
    (second : List (Text × α)) :
    revalued first (setMember name value second) =
      setMember name value (revalued first second) := by
  induction first with
  | nil => cases member
  | cons known others inductionHypothesis =>
      obtain ⟨notAgain, othersDifferent⟩ := List.nodup_cons.mp different
      rw [revalued, revalued, List.map_cons, List.map_cons, setMember]
      by_cases same : known.1 = name
      · subst same
        rw [if_pos rfl, lookup_setMember, if_pos rfl]
        refine congrArg _ (List.map_congr_left fun entry isEntry => ?_)
        have differs : entry.1 ≠ known.1 := by
          rintro same
          exact notAgain (same ▸ List.mem_map_of_mem isEntry)
        rw [lookup_setMember, if_neg differs]
      · rw [List.map_cons, List.mem_cons] at member
        have inOthers := member.resolve_left (Ne.symm same)
        rw [if_neg same, lookup_setMember, if_neg same]
        exact congrArg _ (inductionHypothesis othersDifferent inOthers)

theorem revalued_setMember_of_not_mem
    (isNew : name ∉ first.map Prod.fst)
    (second : List (Text × α)) :
    revalued first (setMember name value second) = revalued first second := by
  refine List.map_congr_left fun entry isEntry => ?_
  have differs : entry.1 ≠ name := by
    rintro rfl
    exact isNew (List.mem_map_of_mem isEntry)
  rw [lookup_setMember, if_neg differs]

/-- Setting a member of what is laid over sets it in the whole. -/
theorem overlaid_setMember
    (different : (first.map Prod.fst).Nodup)
    (name : Text)
    (value : α)
    (second : List (Text × α)) :
    overlaid first (setMember name value second) =
      setMember name value (overlaid first second) := by
  have sameNames := map_fst_revalued first second
  by_cases member : name ∈ first.map Prod.fst
  · have isDropped : decide (name ∉ first.map Prod.fst) = false := by simpa using member
    rw [overlaid, overlaid, setMember_append_of_mem (sameNames ▸ member),
      revalued_setMember_of_mem different member]
    exact congrArg _ (@filter_setMember_of_dropped _ _ value second
      (fun name => name ∉ first.map Prod.fst) isDropped)
  · have isKept : decide (name ∉ first.map Prod.fst) = true := decide_eq_true member
    rw [overlaid, overlaid, setMember_append_of_not_mem (sameNames ▸ member),
      revalued_setMember_of_not_mem member]
    exact congrArg _ (@filter_setMember_of_kept _ _ value second
      (fun name => name ∉ first.map Prod.fst) isKept)

end TestAudit.Json
