import TestAudit.Proofs.Source.Closing
import TestAudit.Proofs.Source.Receiver

namespace TestAudit.Language

/-!
# Snapshot calls and literals

A receiver is a snapshot call when its last parenthesis closes, literals being passed
over, what the parenthesis behind the name of such a call opens. Counting comes to the
same where no literal holds a parenthesis, unless the name only ends in one of those names.
-/

open Receiver Text

/-- Whether a character belongs to the name of a callee. -/
def isCalleeChar (c : Char) : Bool :=
  isWord c || c == '$'

/-- The name at the end of a text, white space aside. -/
def calleeName (text : Text) : Text :=
  (text.trimEnd.reverse.takeWhile isCalleeChar).reverse

/-- A call of a snapshot method leads on to an offset; literals do not count as parentheses. -/
structure SnapshotCall
    (language : Language) (text : Text) (offset opening closing : Nat) : Prop where
  before : closing < offset
  leadsOn :
    ∀ between,
      closing < between →
      between < offset →
      ∃ c, text[between]? = some c ∧ (isAccess c = true ∨ isBlank c = true)
  opened : text[opening]? = some '('
  closes : language.Closes text 1 (opening + 1) closing
  isSnapshot : calleeName (text.take opening) ∈ snapshotCalls

/-- The name of a snapshot call is a callee of its own behind any other character. -/
theorem calleeName_append
    {front name : Text}
    (isSnapshot : name ∈ snapshotCalls)
    (whole : front.getLast?.any isCalleeChar = false) :
    calleeName (front ++ name) = name := by
  obtain ⟨kept, last, shape, notBlank⟩ := exists_last_of_mem_snapshotCalls isSnapshot
  have untrimmed : trimEnd (front ++ name) = front ++ name := by
    rw [shape, ← List.append_assoc]
    exact trimEnd_concat notBlank
  have inName : ∀ c ∈ name.reverse, isCalleeChar c = true := by
    intro c member
    have word := isWord_of_mem_snapshotCalls isSnapshot c (List.mem_reverse.mp member)
    simp [isCalleeChar, word]
  have noMore : front.reverse.takeWhile isCalleeChar = [] := by
    rcases List.eq_nil_or_concat front with rfl | ⟨others, c, rfl⟩
    · rfl
    · rw [List.concat_eq_append] at whole ⊢
      have other : isCalleeChar c = false := by simpa using whole
      simp [other]
  rw [calleeName, untrimmed, List.reverse_append, List.takeWhile_append_of_pos inName,
    noMore, List.append_nil, List.reverse_reverse]

variable {language : Language} {text : Text} {offset floor : Nat}

/--
A counted snapshot is a snapshot call when all its parentheses are code of its
argument and no dollar sign precedes the name.
-/
theorem snapshotCall_of_counted
    (opened : text[floor - 1]? = some '(')
    (positive : 0 < floor)
    (within : offset ≤ text.length)
    {front name argument access : Text}
    (snapshot : CountedSnapshot text floor offset front name argument access)
    (noDollar : front.getLast? ≠ some '$')
    (areCode :
      language.ParenthesesAreCode text
        (floor + (front ++ name).length + 1)
        (floor + (front ++ name).length + 1 + argument.length)) :
    language.SnapshotCall text offset
      (floor + (front ++ name).length)
      (floor + (front ++ name).length + 1 + argument.length) := by
  obtain ⟨shape, isSnapshot, whole, balanced, leadsOn⟩ := snapshot
  have lengths := congrArg List.length shape
  simp only [List.length_drop, List.length_take, List.length_append, List.length_cons] at lengths
  have fromFloor :
      text.drop floor =
        (front ++ name) ++ '(' :: (argument ++ ')' :: (access ++ text.drop offset)) := by
    have parts : text.drop floor = (text.take offset).drop floor ++ text.drop offset := by
      rw [← List.drop_append_of_le_length (by rw [List.length_take]; omega),
        List.take_append_drop]
    rw [parts, shape]
    simp
  have fromOpening :
      text.drop (floor + (front ++ name).length) =
        '(' :: (argument ++ ')' :: (access ++ text.drop offset)) := by
    rw [← List.drop_drop, fromFloor, List.drop_left]
  obtain ⟨_, isOpening, fromArgument⟩ := Text.drop_eq_cons fromOpening
  have fromClosing :
      text.drop (floor + (front ++ name).length + 1 + argument.length) =
        ')' :: (access ++ text.drop offset) := by
    rw [← List.drop_drop, fromArgument, List.drop_left]
  obtain ⟨_, _, fromAccess⟩ := Text.drop_eq_cons fromClosing
  refine ⟨?_, ?_, isOpening, closes_of_leaves fromArgument balanced areCode, ?_⟩
  · rw [List.length_append]
    omega
  · intro between after before
    rw [List.length_append] at after fromAccess
    obtain ⟨index, rfl⟩ := Nat.exists_eq_add_of_le after
    have inAccess : index < access.length := by omega
    have found := congrArg (·[index]?) fromAccess
    simp only [List.getElem?_drop, List.getElem?_append_left inAccess,
      List.getElem?_eq_getElem inAccess] at found
    exact ⟨access[index], found, Or.inl (leadsOn _ (List.getElem_mem inAccess))⟩
  · have upToOpening :
        text.take (floor + (front ++ name).length) = text.take floor ++ front ++ name := by
      rw [List.take_add, fromFloor, List.take_left, List.append_assoc]
    rw [upToOpening, calleeName_append isSnapshot]
    · exact isSnapshot
    · rw [List.getLast?_append, List.getLast?_take]
      cases lastOfFront : front.getLast? with
      | none =>
          have notZero : ¬ floor = 0 := by omega
          simp only [notZero, ↓reduceIte, opened]
          rfl
      | some c =>
          rw [lastOfFront] at whole noDollar
          have notDollar : c ≠ '$' := by
            rintro rfl
            exact noDollar rfl
          simpa [isCalleeChar, notDollar] using whole

end TestAudit.Language
