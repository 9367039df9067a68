import TestAudit.Text.Blank
import TestAudit.Text.Digit
import TestAudit.Text.Lines
import TestAudit.Text.Word

namespace TestAudit

/-!
# Classes of characters

There are few blanks, so what holds of each blank is found by trying them. No blank is a
word character or a digit, and whatever ends a line is a blank.
-/

/-- A code point in a set lies some steps behind the beginning of one of the ranges. -/
theorem CodeRanges.exists_of_has
    {ranges : CodeRanges}
    {code : Nat}
    (has : ranges.has code = true) :
    ∃ range ∈ ranges, ∃ step < range.2 - range.1 + 1, code = range.1 + step := by
  induction ranges with
  | nil => simp [CodeRanges.has] at has
  | cons range others inductionHypothesis =>
      unfold CodeRanges.has at has
      split at has
      · cases has
      · split at has
        · exact ⟨range, List.mem_cons_self, code - range.1, by omega, by omega⟩
        · obtain ⟨other, member, found⟩ := inductionHypothesis has
          exact ⟨other, List.mem_cons_of_mem range member, found⟩

namespace CodeRanges

/-- Whether a run of ten code points lies in a range. -/
def holdsRun (range : Nat × Nat) (start : Nat) : Bool :=
  range.1 ≤ start && start + 9 ≤ range.2

/-- Whether runs of ten code points, given by their starts, lie in ranges; both are ascending. -/
def holdRuns : CodeRanges → List Nat → Bool
  | [], starts => starts.isEmpty
  | range :: ranges, starts =>
      let behind := starts.dropWhile (holdsRun range)
      behind.head?.all (range.1 ≤ ·) && holdRuns ranges behind

theorem has_of_holdRuns
    {ranges : CodeRanges}
    {starts : List Nat}
    (ascending : starts.Pairwise (· ≤ ·))
    (hold : holdRuns ranges starts = true)
    {start step : Nat}
    (member : start ∈ starts)
    (within : step < 10) :
    ranges.has (start + step) = true := by
  induction ranges generalizing starts with
  | nil =>
      rw [List.isEmpty_iff.mp hold] at member
      cases member
  | cons range ranges inductionHypothesis =>
      obtain ⟨first, last⟩ := range
      obtain ⟨headHeld, behindHeld⟩ := Bool.and_eq_true_iff.mp hold
      rw [← @List.takeWhile_append_dropWhile _ (holdsRun (first, last)) starts,
        List.mem_append] at member
      rw [has]
      rcases member with isHere | isBehind
      · have inRange := List.all_eq_true.mp List.all_takeWhile start isHere
        simp only [holdsRun, Bool.and_eq_true, decide_eq_true_eq] at inRange
        rw [if_neg (by omega), if_pos (by omega)]
      · have behindAscending := ascending.sublist (List.dropWhile_sublist (holdsRun (first, last)))
        obtain ⟨head, others, shape⟩ := List.exists_cons_of_ne_nil (List.ne_nil_of_mem isBehind)
        rw [shape] at headHeld behindAscending isBehind
        have headBehind : first ≤ head := of_decide_eq_true headHeld
        have isFromHead : head ≤ start := by
          rcases List.mem_cons.mp isBehind with rfl | inOthers
          · exact Nat.le_refl _
          · exact (List.pairwise_cons.mp behindAscending).1 start inOthers
        rw [if_neg (by omega)]
        split
        · rfl
        · exact inductionHypothesis behindAscending (shape ▸ behindHeld) isBehind

end CodeRanges

namespace Text

variable {c : Char}

/-- What holds of all code points in the ranges of blanks holds of a blank. -/
theorem of_isBlank
    (property : Char → Bool)
    (holds :
      ∀ range ∈ blankRanges, ∀ step < range.2 - range.1 + 1,
        property (Char.ofNat (range.1 + step)) = true)
    (blank : isBlank c = true) :
    property c = true := by
  obtain ⟨range, member, step, within, code⟩ := CodeRanges.exists_of_has blank
  rw [← Char.ofNat_toNat c, code]
  exact holds range member step within

theorem isWord_of_isBlank
    (blank : isBlank c = true) :
    isWord c = false := by
  have notWord : (!isWord c) = true :=
    of_isBlank (!isWord ·) (by decide +kernel) blank
  simpa using notWord

theorem isDigit_of_isBlank
    (blank : isBlank c = true) :
    isDigit c = false := by
  have notDigit : (!isDigit c) = true :=
    of_isBlank (!isDigit ·) (by decide +kernel) blank
  simpa using notDigit

theorem isBlank_of_isWord
    (isWordChar : isWord c = true) :
    isBlank c = false := by
  refine Bool.eq_false_iff.mpr fun blank => ?_
  rw [isWord_of_isBlank blank] at isWordChar
  cases isWordChar

/-- Every digit is a word character. -/
theorem isWord_of_isDigit
    (digit : isDigit c = true) :
    isWord c = true := by
  have ascending : digitZeros.tail.Pairwise (· ≤ ·) := by decide +kernel
  have hold : wordRanges.holdRuns digitZeros.tail = true := by decide +kernel
  have beyondAscii : ∀ start ∈ digitZeros.tail, 0x80 ≤ start := by decide +kernel
  have atFirst : ∀ step < 10, isWord (Char.ofNat (0x30 + step)) = true := by decide
  obtain ⟨_, found⟩ := Option.isSome_iff_exists.mp digit
  obtain ⟨start, isStart, _⟩ := Option.map_eq_some_iff.mp found
  have within := List.find?_some isStart
  simp only [Bool.and_eq_true, decide_eq_true_eq] at within
  have code : c.toNat = start + (c.toNat - start) := by omega
  have isStep : c.toNat - start < 10 := by omega
  have member : start ∈ 0x30 :: digitZeros.tail := List.mem_of_find?_eq_some isStart
  -- The digits of ASCII are word characters by rule, the others by the ranges.
  rcases List.mem_cons.mp member with rfl | inTail
  · rw [← Char.ofNat_toNat c, code]
    exact atFirst _ isStep
  · have beyond := beyondAscii start inTail
    rw [isWord, if_neg (by omega), code]
    exact CodeRanges.has_of_holdRuns ascending hold inTail isStep

theorem isBlank_of_isLineEnd
    (ends : isLineEnd c = true) :
    isBlank c = true := by
  simp only [isLineEnd, Bool.or_eq_true, Bool.and_eq_true, decide_eq_true_eq, beq_iff_eq] at ends
  simp only [isBlank, blankRanges, CodeRanges.has, Bool.if_false_left, Bool.if_true_left,
    Bool.or_eq_true, Bool.and_eq_true, Bool.not_eq_true', decide_eq_true_eq,
    decide_eq_false_iff_not]
  omega

theorem isLineEnd_of_not_isBlank
    (notBlank : isBlank c = false) :
    isLineEnd c = false := by
  refine Bool.eq_false_iff.mpr fun ends => ?_
  rw [isBlank_of_isLineEnd ends] at notBlank
  cases notBlank

/-! ## Runs of characters of a class -/

variable {belongs : Char → Bool} {front text : Text}

/-- Characters of a class are taken up to one that does not belong to it. -/
theorem takeWhile_append_of_head
    (belong : ∀ c ∈ front, belongs c = true)
    (stops : ∀ c ∈ text.head?, belongs c = false) :
    (front ++ text).takeWhile belongs = front := by
  rw [List.takeWhile_append_of_pos belong]
  cases text with
  | nil => exact List.append_nil front
  | cons c rest =>
      rw [List.takeWhile_cons_of_neg (by simp [stops c rfl]), List.append_nil]

/-- Characters of a class are dropped up to one that does not belong to it. -/
theorem dropWhile_append_of_head
    (belong : ∀ c ∈ front, belongs c = true)
    (stops : ∀ c ∈ text.head?, belongs c = false) :
    (front ++ text).dropWhile belongs = text := by
  rw [List.dropWhile_append_of_pos belong]
  cases text with
  | nil => rfl
  | cons c rest => exact List.dropWhile_cons_of_neg (by simp [stops c rfl])

/-- A text behind some characters of a kind begins with one of them, or as it does on its own. -/
theorem head_append_cases
    {kind : Char → Prop}
    (ofKind : ∀ c ∈ front, kind c) :
    ∀ c ∈ (front ++ text).head?, kind c ∨ c ∈ text.head? := by
  intro c isFirst
  cases front with
  | nil => exact Or.inr isFirst
  | cons d others =>
      cases isFirst
      exact Or.inl (ofKind c List.mem_cons_self)

theorem exists_append_dropWhile
    (belongs : Char → Bool)
    (text : Text) :
    ∃ front, (∀ c ∈ front, belongs c = true) ∧ text = front ++ text.dropWhile belongs :=
  ⟨text.takeWhile belongs, List.all_eq_true.mp List.all_takeWhile,
    List.takeWhile_append_dropWhile.symm⟩

end Text

end TestAudit
