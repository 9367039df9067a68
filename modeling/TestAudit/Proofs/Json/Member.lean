import Mathlib.Data.List.Nodup
import TestAudit.Json.Value

namespace TestAudit.Json

/-!
# Members with different names

Setting a member leaves the names as they are, or adds one that was not there, so names
that differ go on to differ. A member with a new name goes last, and the last member is
set anew where it stands.
-/

variable {α : Type} {name : Text} {value : α} {members : List (Text × α)}

theorem setMember_of_new
    (isNew : name ∉ members.map Prod.fst) :
    setMember name value members = members ++ [(name, value)] := by
  induction members with
  | nil => rfl
  | cons member others inductionHypothesis =>
      rw [List.map_cons, List.mem_cons, not_or] at isNew
      rw [setMember, if_neg (Ne.symm isNew.1), inductionHypothesis isNew.2]
      rfl

theorem setMember_last
    (isNew : name ∉ members.map Prod.fst)
    (old value : α) :
    setMember name value (members ++ [(name, old)]) = members ++ [(name, value)] := by
  induction members with
  | nil => exact if_pos rfl
  | cons member others inductionHypothesis =>
      rw [List.map_cons, List.mem_cons, not_or] at isNew
      rw [List.cons_append, setMember, if_neg (Ne.symm isNew.1), inductionHypothesis isNew.2]
      rfl

theorem lookup_last
    (isNew : name ∉ members.map Prod.fst)
    (value : α) :
    (members ++ [(name, value)]).lookup name = some value := by
  have absent : members.lookup name = none := by
    rw [List.lookup_eq_none_iff]
    rintro ⟨other, _⟩ member
    have differs : name ≠ other := by
      rintro rfl
      exact isNew (List.mem_map_of_mem member)
    simpa using differs
  rw [List.lookup_append, absent]
  simp

theorem map_fst_setMember
    (name : Text)
    (value : α)
    (members : List (Text × α)) :
    (setMember name value members).map Prod.fst =
      if name ∈ members.map Prod.fst then
        members.map Prod.fst
      else
        members.map Prod.fst ++ [name] := by
  induction members with
  | nil => simp [setMember]
  | cons member others inductionHypothesis =>
      by_cases same : member.1 = name
      · simp [setMember, same]
      · have differs : name ≠ member.1 := Ne.symm same
        simp only [setMember, same, ↓reduceIte, List.map_cons, inductionHypothesis, List.mem_cons,
          differs, false_or]
        split <;> rfl

/-- Names that differ go on to differ. -/
theorem nodup_setMember
    (different : (members.map Prod.fst).Nodup) :
    ((setMember name value members).map Prod.fst).Nodup := by
  rw [map_fst_setMember]
  split
  next => exact different
  next isNew => simpa [List.nodup_append_comm] using And.intro isNew different

theorem mem_of_mem_setMember
    {member : Text × α}
    (isMember : member ∈ setMember name value members) :
    member = (name, value) ∨ member ∈ members := by
  induction members with
  | nil => simpa [setMember] using isMember
  | cons first others inductionHypothesis =>
      rw [setMember] at isMember
      split at isMember
      · rcases List.mem_cons.mp isMember with isSet | isOther
        · exact Or.inl isSet
        · exact Or.inr (List.mem_cons_of_mem first isOther)
      · rcases List.mem_cons.mp isMember with isFirst | isOther
        · exact Or.inr (isFirst ▸ List.mem_cons_self)
        · exact (inductionHypothesis isOther).imp_right (List.mem_cons_of_mem first)

end TestAudit.Json
