namespace TestAudit.Loop

/-!
# Loops turn by turn

A loop is the relation between the states before and after one turn. It terminates from a
state if no run from there is longer than some bound, one run comes to an end, and every
run that does ends as it should. To see that, it is enough to look at one turn: it keeps
an invariant, and it makes a number smaller.
-/

/-- A run of a loop in a number of turns, from one state to another. -/
inductive Run {State : Type} (turn : State → State → Prop) : Nat → State → State → Prop where
  /-- No turn is made. -/
  | stay {state : State} :
      Run turn 0 state state
  /-- One turn, and a run from where it leads. -/
  | turn {count : Nat} {first next last : State} :
      turn first next →
      Run turn count next last →
      Run turn (count + 1) first last

/-- A state from which no turn leads on. -/
def IsEnd {State : Type} (turn : State → State → Prop) (state : State) : Prop :=
  ∀ next, ¬ turn state next

/-- A run from one state comes to its end in another. -/
def Ends {State : Type} (turn : State → State → Prop) (first last : State) : Prop :=
  (∃ count, Run turn count first last) ∧ IsEnd turn last

/-- A loop ends from a state on, in a bounded number of turns and with a result. -/
structure Terminates
    {State : Type}
    (turn : State → State → Prop)
    (first : State)
    (bound : Nat)
    (result : State → Prop) : Prop where
  bounded : ∀ count last, Run turn count first last → count ≤ bound
  ends : ∃ last, Ends turn first last
  result : ∀ last, Ends turn first last → result last

section Rule

variable
  {State : Type}
  {turn : State → State → Prop}
  {first last : State}
  (invariant : State → Prop)
  (remaining : State → Nat)
  (step :
    ∀ state next,
      invariant state →
      turn state next →
      invariant next ∧ remaining next < remaining state)
  (begins : invariant first)

include step begins

/-- A run keeps the invariant, and each of its turns takes something of what remains. -/
theorem Run.keeps
    {count : Nat}
    (run : Run turn count first last) :
    invariant last ∧ count + remaining last ≤ remaining first := by
  induction run with
  | stay => exact ⟨begins, by omega⟩
  | turn isTurn _ inductionHypothesis =>
      obtain ⟨kept, less⟩ := step _ _ begins isTurn
      obtain ⟨keptToTheEnd, further⟩ := inductionHypothesis kept
      exact ⟨keptToTheEnd, by omega⟩

theorem exists_ends :
    ∃ last, Ends turn first last := by
  induction size : remaining first using Nat.strongRecOn generalizing first with
  | ind size inductionHypothesis =>
      subst size
      by_cases isEnd : IsEnd turn first
      · exact ⟨first, ⟨0, .stay⟩, isEnd⟩
      · obtain ⟨next, isTurn⟩ : ∃ next, turn first next := by
          simpa [IsEnd] using isEnd
        obtain ⟨kept, less⟩ := step _ _ begins isTurn
        obtain ⟨last, ⟨count, run⟩, ended⟩ := inductionHypothesis _ less kept rfl
        exact ⟨last, ⟨count + 1, .turn isTurn run⟩, ended⟩

/-- A loop terminates if each turn keeps an invariant and takes something of what remains. -/
theorem terminates_of_invariant
    {bound : Nat}
    {result : State → Prop}
    (enough : remaining first ≤ bound)
    (outcome : ∀ last, invariant last → IsEnd turn last → result last) :
    Terminates turn first bound result where
  bounded := by
    intro count last run
    have less := (run.keeps invariant remaining step begins).2
    omega
  ends := exists_ends invariant remaining step begins
  result := by
    rintro last ⟨⟨count, run⟩, isEnd⟩
    exact outcome last (run.keeps invariant remaining step begins).1 isEnd

end Rule

end TestAudit.Loop
