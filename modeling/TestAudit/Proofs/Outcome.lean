namespace TestAudit.Outcome

/-!
# Outcomes of computations that may fail

A computation that goes on after a step succeeds when both succeed, and fails with the
fault of the step or with that of what follows.
-/

variable {ε α β γ : Type} {step : Except ε α} {next : α → Except ε β}

theorem bind_eq_ok_iff
    {result : β} :
    step >>= next = .ok result ↔ ∃ value, step = .ok value ∧ next value = .ok result := by
  cases step with
  | ok value =>
      constructor
      · exact fun run => ⟨value, rfl, run⟩
      · rintro ⟨_, same, run⟩
        cases same
        exact run
  | error fault => exact iff_of_false nofun nofun

theorem bind_eq_error_iff
    {fault : ε} :
    step >>= next = .error fault ↔
      step = .error fault ∨ ∃ value, step = .ok value ∧ next value = .error fault := by
  cases step with
  | ok value =>
      constructor
      · exact fun run => Or.inr ⟨value, rfl, run⟩
      · rintro (stepFails | ⟨_, same, run⟩)
        · cases stepFails
        · cases same
          exact run
  | error first =>
      constructor
      · intro run
        cases run
        exact Or.inl rfl
      · rintro (stepFails | ⟨_, stepSucceeds, _⟩)
        · cases stepFails
          rfl
        · cases stepSucceeds

theorem toOption_eq_some_iff
    {value : α} :
    step.toOption = some value ↔ step = .ok value := by
  cases step <;> simp [Except.toOption]

theorem map_eq_ok_iff
    {change : α → β}
    {result : β} :
    step.map change = .ok result ↔ ∃ value, step = .ok value ∧ change value = result := by
  cases step <;> simp [Except.map]

theorem map_eq_error_iff
    {change : α → β}
    {fault : ε} :
    step.map change = .error fault ↔ step = .error fault := by
  cases step <;> simp [Except.map]

theorem mapError_eq_ok_iff
    {δ : Type}
    {change : ε → δ}
    {value : α} :
    step.mapError change = .ok value ↔ step = .ok value := by
  cases step with
  | ok found =>
      constructor
      · rintro ⟨rfl⟩
        rfl
      · rintro ⟨rfl⟩
        rfl
  | error inner => exact iff_of_false nofun nofun

theorem mapError_eq_error_iff
    {δ : Type}
    {change : ε → δ}
    {fault : δ} :
    step.mapError change = .error fault ↔ ∃ inner, step = .error inner ∧ change inner = fault := by
  cases step with
  | ok found => exact iff_of_false nofun (by rintro ⟨_, ⟨⟩, _⟩)
  | error inner =>
      constructor
      · rintro ⟨rfl⟩
        exact ⟨inner, rfl, rfl⟩
      · rintro ⟨_, ⟨rfl⟩, rfl⟩
        rfl

theorem bind_pure_eq_error_iff
    (finish : α → β)
    {fault : ε} :
    (do return finish (← step)) = Except.error fault ↔ step = .error fault := by
  cases step with
  | ok value => exact iff_of_false nofun nofun
  | error first =>
      constructor
      · rintro ⟨rfl⟩
        rfl
      · rintro ⟨rfl⟩
        rfl

/-- A computation that always succeeds after a step succeeds just when the step does. -/
theorem exists_bind_pure_iff
    (finish : α → β) :
    (∃ result, (do return finish (← step)) = Except.ok result) ↔
      ∃ value, step = .ok value := by
  cases step with
  | ok value => exact iff_of_true ⟨_, rfl⟩ ⟨_, rfl⟩
  | error fault => exact iff_of_false nofun nofun

/-- What follows a step succeeds just when both do. -/
theorem exists_bind_iff :
    (∃ result, step >>= next = .ok result) ↔
      ∃ value, step = .ok value ∧ ∃ result, next value = .ok result := by
  simp only [bind_eq_ok_iff]
  exact ⟨fun ⟨result, value, run, rest⟩ => ⟨value, run, result, rest⟩,
    fun ⟨value, run, result, rest⟩ => ⟨result, value, run, rest⟩⟩

/-- Two steps, neither of which depends on the other, succeed together just when each does. -/
theorem exists_bind_bind_pure_iff
    {second : Except ε β}
    (finish : α → β → γ) :
    (∃ result,
        (do
          let value ← step
          let other ← second
          return finish value other) = Except.ok result) ↔
      (∃ value, step = .ok value) ∧ ∃ other, second = .ok other := by
  rw [exists_bind_iff]
  constructor
  · rintro ⟨value, run, rest⟩
    exact ⟨⟨value, run⟩, (exists_bind_pure_iff _).mp rest⟩
  · rintro ⟨⟨value, run⟩, rest⟩
    exact ⟨value, run, (exists_bind_pure_iff _).mpr rest⟩

end TestAudit.Outcome
