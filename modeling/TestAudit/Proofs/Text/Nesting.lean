import TestAudit.Text.Basic

namespace TestAudit.Text

/-!
# Nesting of brackets

A text that is read character by character opens and closes brackets of one kind.
Read backwards, the brackets change their roles and the depths their order, so a
balanced text is balanced from either end.
-/

/-- Reading a text with `depth` brackets open leaves `remaining` open and never closes more. -/
inductive Leaves (opener closer : Char) : (depth : Nat) → Text → (remaining : Nat) → Prop where
  | nothing {depth : Nat} :
      Leaves opener closer depth [] depth
  | opened {depth remaining : Nat} {rest : Text} :
      Leaves opener closer (depth + 1) rest remaining →
      Leaves opener closer depth (opener :: rest) remaining
  | closed {depth remaining : Nat} {rest : Text} :
      Leaves opener closer depth rest remaining →
      Leaves opener closer (depth + 1) (closer :: rest) remaining
  | other {depth remaining : Nat} {c : Char} {rest : Text} :
      c ≠ opener →
      c ≠ closer →
      Leaves opener closer depth rest remaining →
      Leaves opener closer depth (c :: rest) remaining

/-- A text closes just the parentheses that it opens. -/
def Balanced (text : Text) : Prop :=
  Leaves '(' ')' 0 text 0

namespace Leaves

variable {opener closer : Char} {depth middle remaining : Nat} {first second text : Text}

theorem append
    (readsFirst : Leaves opener closer depth first middle)
    (readsSecond : Leaves opener closer middle second remaining) :
    Leaves opener closer depth (first ++ second) remaining := by
  induction readsFirst with
  | nothing => exact readsSecond
  | opened _ inductionHypothesis => exact .opened (inductionHypothesis readsSecond)
  | closed _ inductionHypothesis => exact .closed (inductionHypothesis readsSecond)
  | other notOpener notCloser _ inductionHypothesis =>
      exact .other notOpener notCloser (inductionHypothesis readsSecond)

/-- Backwards, the brackets change their roles. -/
theorem reverse
    (reads : Leaves opener closer depth text remaining) :
    Leaves closer opener remaining text.reverse depth := by
  induction reads with
  | nothing => exact .nothing
  | opened _ inductionHypothesis =>
      rw [List.reverse_cons]
      exact inductionHypothesis.append (.closed .nothing)
  | closed _ inductionHypothesis =>
      rw [List.reverse_cons]
      exact inductionHypothesis.append (.opened .nothing)
  | other notOpener notCloser _ inductionHypothesis =>
      rw [List.reverse_cons]
      exact inductionHypothesis.append (.other notCloser notOpener .nothing)

theorem of_plain
    (plain : ∀ c ∈ text, c ≠ opener ∧ c ≠ closer) :
    Leaves opener closer depth text depth := by
  induction text with
  | nil => exact .nothing
  | cons c rest inductionHypothesis =>
      obtain ⟨notOpener, notCloser⟩ := plain c List.mem_cons_self
      refine .other notOpener notCloser (inductionHypothesis ?_)
      intro d member
      exact plain d (List.mem_cons_of_mem c member)

/-- Characters that are no brackets can be left out at the beginning. -/
theorem of_append
    (reads : Leaves opener closer depth (first ++ second) remaining)
    (plain : ∀ c ∈ first, c ≠ opener ∧ c ≠ closer) :
    Leaves opener closer depth second remaining := by
  induction first with
  | nil => exact reads
  | cons c first inductionHypothesis =>
      obtain ⟨notOpener, notCloser⟩ := plain c List.mem_cons_self
      have restPlain :
          ∀ d ∈ first, d ≠ opener ∧ d ≠ closer := by
        intro d member
        exact plain d (List.mem_cons_of_mem c member)
      rw [List.cons_append] at reads
      cases reads with
      | opened => exact (notOpener rfl).elim
      | closed => exact (notCloser rfl).elim
      | other _ _ rest => exact inductionHypothesis rest restPlain

/-- A text in two parts is read part by part. -/
theorem exists_middle
    (reads : Leaves opener closer depth (first ++ second) remaining) :
    ∃ middle,
      Leaves opener closer depth first middle ∧ Leaves opener closer middle second remaining := by
  induction first generalizing depth with
  | nil => exact ⟨depth, .nothing, reads⟩
  | cons c first inductionHypothesis =>
      rw [List.cons_append] at reads
      cases reads with
      | opened reads =>
          obtain ⟨middle, readsFirst, readsSecond⟩ := inductionHypothesis reads
          exact ⟨middle, .opened readsFirst, readsSecond⟩
      | closed reads =>
          obtain ⟨middle, readsFirst, readsSecond⟩ := inductionHypothesis reads
          exact ⟨middle, .closed readsFirst, readsSecond⟩
      | other notOpener notCloser reads =>
          obtain ⟨middle, readsFirst, readsSecond⟩ := inductionHypothesis reads
          exact ⟨middle, .other notOpener notCloser readsFirst, readsSecond⟩

theorem count_add
    (reads : Leaves opener closer depth text remaining)
    (differ : opener ≠ closer) :
    text.count opener + depth = text.count closer + remaining := by
  induction reads with
  | nothing => simp
  | opened _ inductionHypothesis =>
      rw [List.count_cons_self, List.count_cons_of_ne differ]
      omega
  | closed _ inductionHypothesis =>
      rw [List.count_cons_self, List.count_cons_of_ne differ.symm]
      omega
  | other notOpener notCloser _ inductionHypothesis =>
      rwa [List.count_cons_of_ne notOpener, List.count_cons_of_ne notCloser]

theorem of_count
    (differ : opener ≠ closer)
    (total : text.count opener + depth = text.count closer + remaining)
    (endings : ∀ back, back <:+ text → back.count opener ≤ back.count closer + remaining) :
    Leaves opener closer depth text remaining := by
  induction text generalizing depth with
  | nil =>
      obtain rfl : depth = remaining := by simpa using total
      exact .nothing
  | cons c rest inductionHypothesis =>
      have isRest := List.suffix_cons c rest
      have further (back : Text) (isEnding : back <:+ rest) := endings back (isEnding.trans isRest)
      by_cases isOpener : c = opener
      · subst isOpener
        rw [List.count_cons_self, List.count_cons_of_ne differ] at total
        exact .opened (inductionHypothesis (by omega) further)
      · by_cases isCloser : c = closer
        · subst isCloser
          rw [List.count_cons_self, List.count_cons_of_ne isOpener] at total
          -- What stands behind the bracket opens no more than it closes, so one is open here.
          have ofRest := endings rest isRest
          obtain ⟨lower, rfl⟩ := Nat.exists_eq_add_one.mpr (show 0 < depth by omega)
          exact .closed (inductionHypothesis (by omega) further)
        · rw [List.count_cons_of_ne isOpener, List.count_cons_of_ne isCloser] at total
          exact .other isOpener isCloser (inductionHypothesis total further)

end Leaves

/-- A text is balanced when it has as many of both parentheses, and no ending opens more. -/
theorem balanced_iff_count
    {text : Text} :
    Balanced text ↔
      text.count '(' = text.count ')' ∧
        ∀ back, back <:+ text → back.count '(' ≤ back.count ')' := by
  have differ : '(' ≠ ')' := by decide
  constructor
  · intro balanced
    refine ⟨balanced.count_add differ, fun back isEnding => ?_⟩
    obtain ⟨front, rfl⟩ := isEnding
    obtain ⟨middle, _, readsBack⟩ := balanced.exists_middle
    have total := readsBack.count_add differ
    omega
  · rintro ⟨total, endings⟩
    exact .of_count differ total endings

/-- A text is balanced when it is balanced backwards. -/
theorem leaves_reverse_iff
    {text : Text} :
    Leaves ')' '(' 0 text.reverse 0 ↔ Balanced text := by
  constructor
  · intro backwards
    have forwards := backwards.reverse
    rwa [List.reverse_reverse] at forwards
  · exact Leaves.reverse

end TestAudit.Text
