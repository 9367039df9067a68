import TestAudit.Text.Blank
import TestAudit.Text.Word

namespace TestAudit.Text

/-!
# What is dropped at the ends of a text

Dropping the characters of a class at the end of a text takes away a run of such
characters and nothing else, and leaves a text alone that ends in another one. A tight
text has no blanks at its ends to be dropped, whatever stands before it.
-/

variable {belongs : Char → Bool} {text : Text}

/-- Dropping at the end takes away characters of the class. -/
theorem eq_dropEndWhile_append
    (belongs : Char → Bool)
    (text : Text) :
    ∃ dropped,
      text = dropEndWhile belongs text ++ dropped ∧ ∀ c ∈ dropped, belongs c = true := by
  refine ⟨(text.reverse.takeWhile belongs).reverse, ?_, ?_⟩
  · rw [dropEndWhile, ← List.reverse_append, List.takeWhile_append_dropWhile,
      List.reverse_reverse]
  · intro c member
    exact List.all_eq_true.mp List.all_takeWhile c (List.mem_reverse.mp member)

/-- What is left does not end in a character of the class. -/
theorem belongs_last_dropEndWhile
    {kept : Text}
    {c : Char}
    (shape : dropEndWhile belongs text = kept ++ [c]) :
    belongs c = false := by
  have backwards : text.reverse.dropWhile belongs = c :: kept.reverse := by
    rw [← List.reverse_reverse (text.reverse.dropWhile belongs)]
    exact (congrArg List.reverse shape).trans (by simp)
  have first := @List.head?_dropWhile_not _ belongs text.reverse
  rw [backwards] at first
  simpa using first

theorem mem_dropEndWhile
    {c : Char}
    (member : c ∈ text)
    (other : belongs c = false) :
    c ∈ dropEndWhile belongs text := by
  obtain ⟨dropped, shape, belong⟩ := eq_dropEndWhile_append belongs text
  rw [shape] at member
  rcases List.mem_append.mp member with kept | isDropped
  · exact kept
  · simp [belong c isDropped] at other

/-- Dropping at the end goes no further than a character that does not belong to the class. -/
theorem dropEndWhile_append_cons
    (kept rest : Text)
    {c : Char}
    (other : belongs c = false) :
    dropEndWhile belongs (kept ++ c :: rest) = kept ++ c :: dropEndWhile belongs rest := by
  have shape : (kept ++ c :: rest).reverse = rest.reverse ++ c :: kept.reverse := by
    simp
  rw [dropEndWhile, shape, List.dropWhile_append]
  split
  next allDropped =>
    rw [List.dropWhile_cons_of_neg (by simp [other]), dropEndWhile, List.isEmpty_iff.mp allDropped]
    simp
  next => simp [dropEndWhile]

/-- Characters of the class at the end make no difference to what is left. -/
theorem dropEndWhile_append_of_pos
    (text : Text)
    {dropped : Text}
    (belong : ∀ d ∈ dropped, belongs d = true) :
    dropEndWhile belongs (text ++ dropped) = dropEndWhile belongs text := by
  rw [dropEndWhile, List.reverse_append, List.dropWhile_append_of_pos, dropEndWhile]
  exact fun d member => belong d (List.mem_reverse.mp member)

/-- Characters of the class are dropped up to one that does not belong to it. -/
theorem dropEndWhile_append
    {kept dropped : Text}
    {c : Char}
    (belong : ∀ d ∈ dropped, belongs d = true)
    (other : belongs c = false) :
    dropEndWhile belongs (kept ++ [c] ++ dropped) = kept ++ [c] := by
  rw [dropEndWhile_append_of_pos _ belong, dropEndWhile_append_cons kept [] other]
  rfl

theorem trimEnd_concat
    {kept : Text}
    {c : Char}
    (notBlank : isBlank c = false) :
    trimEnd (kept ++ [c]) = kept ++ [c] := by
  have dropsNothing := @dropEndWhile_append isBlank kept [] c (by simp) notBlank
  rwa [List.append_nil] at dropsNothing

/-- Blanks at the end make no difference to what trimming at both ends leaves. -/
theorem trim_trimEnd
    (text : Text) :
    text.trimEnd.trim = text.trim := by
  obtain ⟨dropped, shape, areBlank⟩ := eq_dropEndWhile_append isBlank text
  change text = text.trimEnd ++ dropped at shape
  rcases List.eq_nil_or_concat text.trimEnd with isEmpty | ⟨front, c, isLast⟩
  · rw [isEmpty, List.nil_append] at shape
    have nothing : trimStart dropped = [] := by
      rw [trimStart, ← List.append_nil dropped, List.dropWhile_append_of_pos areBlank]
      rfl
    rw [isEmpty, trim, shape, trim, nothing]
    rfl
  · rw [List.concat_eq_append] at isLast
    have notBlank : isBlank c = false := belongs_last_dropEndWhile isLast
    have starts (behind : Text) :
        trimStart (front ++ [c] ++ behind) = front.dropWhile isBlank ++ [c] ++ behind := by
      rw [trimStart, List.append_assoc, List.dropWhile_append]
      split
      next allBlank =>
        rw [List.isEmpty_iff.mp allBlank, List.singleton_append,
          List.dropWhile_cons_of_neg (by simp [notBlank])]
        rfl
      next => exact (List.append_assoc _ _ _).symm
    rw [isLast] at shape ⊢
    have alone := starts []
    rw [List.append_nil, List.append_nil] at alone
    rw [trim, alone, trimEnd_concat notBlank, shape, trim, starts dropped]
    exact (dropEndWhile_append areBlank notBlank).symm

/-! ## Tight texts -/

/-- A text begins and ends with characters that are not blank. -/
structure Tight (text : Text) : Prop where
  head : ∃ c rest, text = c :: rest ∧ isBlank c = false
  last : ∃ front c, text = front ++ [c] ∧ isBlank c = false

namespace Tight

theorem trimEnd_append
    (tight : Tight text)
    (front : Text) :
    trimEnd (front ++ text) = front ++ text := by
  obtain ⟨before, c, rfl, notBlank⟩ := tight.last
  rw [← List.append_assoc]
  exact trimEnd_concat notBlank

theorem trim_append
    (tight : Tight text)
    {blanks : Text}
    (areBlank : ∀ c ∈ blanks, isBlank c = true) :
    trim (blanks ++ text) = text := by
  obtain ⟨c, rest, shape, notBlank⟩ := tight.head
  have start : trimStart (blanks ++ text) = text := by
    rw [trimStart, List.dropWhile_append_of_pos areBlank, shape,
      List.dropWhile_cons_of_neg (by simp [notBlank])]
  rw [trim, start]
  exact tight.trimEnd_append []

/-- A text that trimming leaves alone is tight, unless it is empty. -/
theorem of_trim_eq
    (notEmpty : text ≠ [])
    (same : text.trim = text) :
    Tight text := by
  obtain ⟨dropped, shape, _⟩ := eq_dropEndWhile_append isBlank text.trimStart
  change text.trimStart = text.trim ++ dropped at shape
  rw [same] at shape
  have isShort : text.trimStart.length ≤ text.length :=
    (List.dropWhile_sublist isBlank).length_le
  have nothing : dropped = [] := by
    rw [shape, List.length_append] at isShort
    exact List.eq_nil_of_length_eq_zero (by omega)
  rw [nothing, List.append_nil] at shape
  constructor
  · cases text with
    | nil => exact (notEmpty rfl).elim
    | cons c rest =>
        have first := @List.head?_dropWhile_not _ isBlank (c :: rest)
        rw [← trimStart, shape] at first
        exact ⟨c, rest, rfl, by simpa using first⟩
  · obtain ⟨front, c, isLast⟩ := (List.eq_nil_or_concat text).resolve_left notEmpty
    rw [List.concat_eq_append] at isLast
    have isTrimmed : dropEndWhile isBlank text.trimStart = front ++ [c] := by
      rw [← isLast]
      exact same
    exact ⟨front, c, isLast, belongs_last_dropEndWhile isTrimmed⟩

end Tight

end TestAudit.Text
