import TestAudit.Proofs.Text.Line
import TestAudit.Text.Lines

namespace TestAudit.Text

/-!
# Texts written line by line

Lines without line ends, each with a line feed behind it, are the lines of the text that
they make. A text that is cut at its line feeds has such lines in front of each of its pieces.
-/

/-- No character of a text ends a line. -/
def OnOneLine (text : Text) : Prop :=
  ∀ c ∈ text, isLineEnd c = false

instance (text : Text) : Decidable (OnOneLine text) :=
  List.decidableBAll _ text

theorem OnOneLine.append
    {first second : Text}
    (inFirst : OnOneLine first)
    (inSecond : OnOneLine second) :
    OnOneLine (first ++ second) :=
  List.forall_mem_append.mpr ⟨inFirst, inSecond⟩

/-- Lines, each with a line feed behind it. -/
def ofLines (lines : List Text) : Text :=
  lines.flatMap (· ++ ['\n'])

theorem ofLines_cons
    (line : Text)
    (lines : List Text) :
    ofLines (line :: lines) = line ++ '\n' :: ofLines lines := by
  rw [ofLines, List.flatMap_cons, List.append_assoc]
  rfl

/-- The first line of a text goes up to its first line feed, if nothing before ends a line. -/
theorem lines_append_lineFeed
    {line : Text}
    (onOneLine : OnOneLine line)
    (rest : Text) :
    lines (line ++ '\n' :: rest) = line :: lines rest := by
  induction line with
  | nil =>
      rw [List.nil_append, lines, if_pos (by decide)]
      nofun
  | cons c others inductionHypothesis =>
      obtain ⟨notEnd, othersOnOneLine⟩ := List.forall_mem_cons.mp onOneLine
      have behind := inductionHypothesis othersOnOneLine
      rw [List.cons_append, lines]
      · rw [if_neg (by simp [notEnd]), behind]
      · rintro _ rfl _
        cases notEnd

/-- A text that is empty or ends in a line feed. -/
def EndsLine (text : Text) : Prop :=
  text = [] ∨ text.getLast? = some '\n'

instance (text : Text) : Decidable (EndsLine text) :=
  instDecidableOr

theorem EndsLine.of_cons
    {c : Char}
    {rest : Text}
    (ends : EndsLine (c :: rest)) :
    EndsLine rest := by
  cases rest with
  | nil => exact Or.inl rfl
  | cons d others =>
      rcases ends with isEmpty | endsLine
      · cases isEmpty
      · exact Or.inr (List.getLast?_cons_cons ▸ endsLine)

theorem EndsLine.ne_nil_of_cons
    {c : Char}
    {rest : Text}
    (ends : EndsLine (c :: rest))
    (notEnd : isLineEnd c ≠ true) :
    rest ≠ [] := by
  rintro rfl
  obtain rfl : c = '\n' := by simpa [EndsLine] using ends
  exact notEnd rfl

theorem lines_ne_nil
    {text : Text}
    (notEmpty : text ≠ []) :
    lines text ≠ [] := by
  fun_cases lines text with
  | case1 => exact (notEmpty rfl).elim
  | case2 rest => exact List.cons_ne_nil _ _
  | case3 c rest => exact List.cons_ne_nil _ _
  | case4 c rest => exact List.cons_ne_nil _ _
  | case5 c rest => exact List.cons_ne_nil _ _

/-- Behind a text that ends in a line feed a new line begins. -/
theorem lines_append
    {first : Text}
    (ends : EndsLine first)
    (second : Text) :
    lines (first ++ second) = lines first ++ lines second := by
  fun_induction lines first with
  | case1 => rfl
  | case2 rest inductionHypothesis =>
      rw [List.cons_append, List.cons_append, lines, inductionHypothesis ends.of_cons.of_cons]
      rfl
  | case3 c rest notPair isEnd inductionHypothesis =>
      rw [List.cons_append, lines, if_pos isEnd, inductionHypothesis ends.of_cons]
      · rfl
      · rintro others rfl shape
        cases rest with
        | nil => simp [EndsLine] at ends
        | cons d rest => exact notPair rest rfl (congrArg (· :: rest) (List.cons.inj shape).1)
  | case4 c rest notPair notEnd isLast inductionHypothesis =>
      exact (lines_ne_nil (ends.ne_nil_of_cons notEnd) isLast).elim
  | case5 c rest notPair notEnd line more isMore inductionHypothesis =>
      have notEmpty := ends.ne_nil_of_cons notEnd
      rw [List.cons_append, lines, if_neg notEnd, inductionHypothesis ends.of_cons, isMore]
      · rfl
      · rintro others rfl shape
        cases rest with
        | nil => exact notEmpty rfl
        | cons d rest => exact notPair rest rfl (congrArg (· :: rest) (List.cons.inj shape).1)

theorem lines_ofLines
    {lines : List Text}
    (onOneLine : ∀ line ∈ lines, OnOneLine line) :
    (ofLines lines).lines = lines := by
  induction lines with
  | nil => rfl
  | cons line others inductionHypothesis =>
      obtain ⟨first, rest⟩ := List.forall_mem_cons.mp onOneLine
      rw [ofLines_cons, lines_append_lineFeed first, inductionHypothesis rest]

/-! ## Cutting at line feeds -/

/-- A text in front of which a line ends. -/
def AtLineEnd (behind : Text) : Prop :=
  behind = [] ∨ ∃ rest, behind = '\n' :: rest

/-- What stands on a line is a part of that line. -/
theorem AtLineEnd.exists_of_append_eq
    {line behind front rest : Text}
    (atEnd : AtLineEnd behind)
    (oneLine : '\n' ∉ front)
    (same : line ++ behind = front ++ rest) :
    ∃ more, line = front ++ more ∧ rest = more ++ behind := by
  obtain ⟨beyond, rfl, rfl⟩ | ⟨more, rfl, rfl⟩ := List.append_eq_append_iff.mp same
  · cases beyond with
    | nil => exact ⟨[], by simp, rfl⟩
    | cons c others =>
        obtain isEmpty | ⟨_, shape⟩ := atEnd
        · cases isEmpty
        · obtain ⟨rfl, _⟩ := List.cons.inj shape
          exact (oneLine (by simp)).elim
  · exact ⟨more, rfl, rfl⟩

theorem ofLines_append
    (lines others : List Text) :
    ofLines (lines ++ others) = ofLines lines ++ ofLines others :=
  List.flatMap_append

theorem ofLines_splitOn
    (text : Text) :
    ofLines (text.splitOn '\n') = text ++ ['\n'] := by
  induction text with
  | nil => rfl
  | cons c rest inductionHypothesis =>
      unfold splitOn
      split
      next isEnd =>
        subst isEnd
        rw [ofLines_cons, inductionHypothesis]
        rfl
      next =>
        split
        next line lines areLines =>
          rw [areLines, ofLines_cons] at inductionHypothesis
          rw [ofLines_cons, List.cons_append, inductionHypothesis]
          rfl
        next isNothing =>
          rw [isNothing] at inductionHypothesis
          cases rest <;> cases inductionHypothesis

theorem splitOn_ofLines_append
    {lines : List Text}
    (whole : ∀ line ∈ lines, '\n' ∉ line)
    (rest : Text) :
    splitOn '\n' (ofLines lines ++ rest) = lines ++ splitOn '\n' rest := by
  induction lines with
  | nil => rfl
  | cons line lines inductionHypothesis =>
      obtain ⟨lineWhole, othersWhole⟩ := List.forall_mem_cons.mp whole
      rw [ofLines_cons, List.append_assoc, List.cons_append, splitOn_append_separator lineWhole,
        inductionHypothesis othersWhole, List.cons_append]

theorem endsLine_iff
    {before : Text} :
    EndsLine before ↔ ∃ lines, before = ofLines lines ∧ ∀ line ∈ lines, '\n' ∉ line := by
  constructor
  · rintro (rfl | isEnd)
    · exact ⟨[], rfl, List.forall_mem_nil _⟩
    · obtain ⟨front, rfl⟩ := List.getLast?_eq_some_iff.mp isEnd
      exact ⟨splitOn '\n' front, (ofLines_splitOn front).symm, fun _ => not_mem_of_mem_splitOn⟩
  · rintro ⟨lines, rfl, _⟩
    obtain rfl | ⟨others, last, rfl⟩ := List.eq_nil_or_concat lines
    · exact Or.inl rfl
    · refine Or.inr (List.getLast?_eq_some_iff.mpr ⟨ofLines others ++ last, ?_⟩)
      rw [List.concat_eq_append, ofLines_append, ofLines_cons, List.append_assoc]
      rfl

/-- What the lines behind a line come to, the line feed between them included. -/
theorem exists_atLineEnd
    (lines : List Text) :
    ∃ behind, AtLineEnd behind ∧ '\n' :: ofLines lines = behind ++ ['\n'] := by
  obtain rfl | ⟨others, last, rfl⟩ := List.eq_nil_or_concat lines
  · exact ⟨[], Or.inl rfl, rfl⟩
  · refine ⟨'\n' :: (ofLines others ++ last), Or.inr ⟨_, rfl⟩, ?_⟩
    rw [List.concat_eq_append, ofLines_append, ofLines_cons, List.cons_append, List.append_assoc]
    rfl

/-- A text has a line between others just where it stands between two ends of lines. -/
theorem exists_splitOn_iff
    {text line : Text}
    {before : List Text} :
    (∃ after, text.splitOn '\n' = before ++ line :: after) ↔
      (∀ other ∈ before, '\n' ∉ other) ∧
        '\n' ∉ line ∧ ∃ behind, AtLineEnd behind ∧ text = ofLines before ++ (line ++ behind) := by
  constructor
  · rintro ⟨after, areLines⟩
    have whole : ∀ other ∈ before ++ line :: after, '\n' ∉ other :=
      fun _ member => not_mem_of_mem_splitOn (areLines ▸ member)
    obtain ⟨wholeBefore, wholeAfter⟩ := List.forall_mem_append.mp whole
    obtain ⟨behind, atEnd, shape⟩ := exists_atLineEnd after
    refine ⟨wholeBefore, wholeAfter line List.mem_cons_self, behind, atEnd, ?_⟩
    have parts := ofLines_splitOn text
    rw [areLines, ofLines_append, ofLines_cons, shape, ← List.append_assoc,
      ← List.append_assoc] at parts
    rw [← List.append_assoc]
    exact (List.append_cancel_right parts).symm
  · rintro ⟨wholeBefore, wholeLine, behind, atEnd, rfl⟩
    rw [splitOn_ofLines_append wholeBefore]
    obtain rfl | ⟨rest, rfl⟩ := atEnd
    · rw [List.append_nil, splitOn_of_not_mem wholeLine]
      exact ⟨[], rfl⟩
    · rw [splitOn_append_separator wholeLine]
      exact ⟨_, rfl⟩

end TestAudit.Text
