import TestAudit.Text.Basic

namespace TestAudit.Text

/-!
# Lines and their characters

Cutting a text at a character and joining pieces again keep all other characters:
a character stands in the piece whose number is that of the cuts before it. Pieces that
were joined are cut apart again, if none of them holds the character.
-/

theorem joinWith_cons
    {separator first : Text}
    {others : List Text}
    (notLast : others ≠ []) :
    joinWith separator (first :: others) = first ++ separator ++ joinWith separator others := by
  obtain ⟨second, others, rfl⟩ := List.exists_cons_of_ne_nil notLast
  rw [joinWith, List.intercalate_cons_cons]
  rfl

/--
A character that does not separate stands in a piece. Before it come the pieces up to
that one, as many as there are separators, and a part of the piece itself.
-/
theorem exists_splitOn_eq
    {separator c : Char}
    {text : Text}
    {offset : Nat}
    (here : text[offset]? = some c)
    (other : c ≠ separator) :
    ∃ before piece after column,
      text.splitOn separator = before ++ piece :: after ∧
        before.length = (text.take offset).count separator ∧
        text.take offset = joinWith [separator] (before ++ [piece.take column]) ∧
        piece[column]? = some c := by
  induction text generalizing offset with
  | nil => simp at here
  | cons d rest inductionHypothesis =>
      cases offset with
      | zero =>
          obtain rfl : d = c := by simpa using here
          simp only [splitOn, other, ↓reduceIte]
          cases splitOn separator rest with
          | nil => exact ⟨[], [d], [], 0, rfl, rfl, rfl, rfl⟩
          | cons piece pieces => exact ⟨[], d :: piece, pieces, 0, rfl, rfl, rfl, rfl⟩
      | succ offset =>
          rw [List.getElem?_cons_succ] at here
          obtain ⟨before, piece, after, column, pieces, number, front, inPiece⟩ :=
            inductionHypothesis here
          by_cases separates : d = separator
          · subst separates
            refine ⟨[] :: before, piece, after, column, ?_, ?_, ?_, inPiece⟩
            · rw [splitOn, if_pos rfl, pieces]
              rfl
            · simp [number]
            · rw [List.take_succ_cons, front, List.cons_append, joinWith_cons (by simp)]
              rfl
          · rw [List.take_succ_cons, List.count_cons_of_ne separates, splitOn, if_neg separates,
              pieces]
            -- The character goes to the first piece, which is that of the offset or one before it.
            cases before with
            | nil =>
                refine ⟨[], d :: piece, after, column + 1, rfl, number, ?_, inPiece⟩
                rw [front]
                simp [joinWith]
            | cons first before =>
                refine ⟨(d :: first) :: before, piece, after, column, rfl, number, ?_, inPiece⟩
                rw [front, List.cons_append, List.cons_append, joinWith_cons (by simp),
                  joinWith_cons (by simp)]
                rfl

/-- A character that does not separate stands in the piece behind as many separators as precede it. -/
theorem exists_getElem?_splitOn
    {separator c : Char}
    {text : Text}
    {offset : Nat}
    (here : text[offset]? = some c)
    (other : c ≠ separator) :
    ∃ piece,
      (text.splitOn separator)[(text.take offset).count separator]? = some piece ∧
        c ∈ piece := by
  obtain ⟨before, piece, after, column, pieces, number, _, inPiece⟩ :=
    exists_splitOn_eq here other
  refine ⟨piece, ?_, List.mem_of_getElem? inPiece⟩
  rw [pieces, ← number, List.getElem?_append_right (Nat.le_refl _), Nat.sub_self]
  rfl

theorem mem_joinWith
    {separator piece : Text}
    {pieces : List Text}
    {c : Char}
    (isPiece : piece ∈ pieces)
    (member : c ∈ piece) :
    c ∈ joinWith separator pieces := by
  unfold joinWith
  induction pieces with
  | nil => simp at isPiece
  | cons first others inductionHypothesis =>
      cases others with
      | nil =>
          obtain rfl : piece = first := by simpa using isPiece
          simpa using member
      | cons second others =>
          rw [List.intercalate_cons_cons]
          rcases List.mem_cons.mp isPiece with rfl | inOthers
          · simp [member]
          · simp [inductionHypothesis inOthers]

/-! ## Pieces that are joined and cut apart -/

section Pieces

variable {separator : Char}

theorem not_mem_of_mem_splitOn
    {text piece : Text}
    (isPiece : piece ∈ text.splitOn separator) :
    separator ∉ piece := by
  induction text generalizing piece with
  | nil =>
      obtain rfl : piece = [] := by simpa [splitOn] using isPiece
      exact List.not_mem_nil
  | cons c rest inductionHypothesis =>
      unfold splitOn at isPiece
      split at isPiece
      next =>
        rcases List.mem_cons.mp isPiece with rfl | inRest
        · exact List.not_mem_nil
        · exact inductionHypothesis inRest
      next other =>
        split at isPiece
        next first others pieces =>
          rw [pieces] at inductionHypothesis
          rcases List.mem_cons.mp isPiece with rfl | inOthers
          · have notInFirst := inductionHypothesis List.mem_cons_self
            simpa [List.mem_cons, Ne.symm other] using notInFirst
          · exact inductionHypothesis (List.mem_cons_of_mem first inOthers)
        next =>
          obtain rfl : piece = [c] := by simpa using isPiece
          simpa using Ne.symm other

theorem splitOn_append_separator
    {piece : Text}
    (whole : separator ∉ piece)
    (rest : Text) :
    splitOn separator (piece ++ separator :: rest) = piece :: splitOn separator rest := by
  induction piece with
  | nil => rw [List.nil_append, splitOn, if_pos rfl]
  | cons c others inductionHypothesis =>
      rw [List.mem_cons, not_or] at whole
      rw [List.cons_append, splitOn, if_neg (Ne.symm whole.1), inductionHypothesis whole.2]

theorem splitOn_of_not_mem
    {text : Text}
    (whole : separator ∉ text) :
    splitOn separator text = [text] := by
  induction text with
  | nil => rfl
  | cons c others inductionHypothesis =>
      rw [List.mem_cons, not_or] at whole
      rw [splitOn, if_neg (Ne.symm whole.1), inductionHypothesis whole.2]

/-- Pieces without the separating character are cut apart where they were joined. -/
theorem splitOn_joinWith
    {pieces : List Text}
    (notEmpty : pieces ≠ [])
    (whole : ∀ piece ∈ pieces, separator ∉ piece) :
    splitOn separator (joinWith [separator] pieces) = pieces := by
  unfold joinWith
  induction pieces with
  | nil => exact (notEmpty rfl).elim
  | cons piece others inductionHypothesis =>
      obtain ⟨pieceWhole, othersWhole⟩ := List.forall_mem_cons.mp whole
      cases others with
      | nil => simpa using splitOn_of_not_mem pieceWhole
      | cons second others =>
          rw [List.intercalate_cons_cons, List.append_assoc, List.singleton_append,
            splitOn_append_separator pieceWhole, inductionHypothesis nofun othersWhole]

end Pieces

end TestAudit.Text
