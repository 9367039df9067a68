import TestAudit.Proofs.Finding.Scan

namespace TestAudit.Scan

/-!
# Where violations are

A match begins with a character that is not blank, and that character is in the line that
is reported. So the reported line is one of the lines of the text, and the lines shown
around it are never all blank: what was matched is never shown in their place, and every
violation is well formed.
-/

/-- The lines from one number to another, counted from one and including both. -/
def linesBetween (lines : List Text) (first last : Nat) : List Text :=
  (lines.take last).drop (first - 1)

/--
An offset is in the line with a number: before it come the lines before that one and a
part of the line itself.
-/
def OnLine (text : Text) (number offset : Nat) : Prop :=
  ∃ before piece after column,
    text.splitOn '\n' = before ++ piece :: after ∧
      before.length + 1 = number ∧
      text.take offset = Text.joinWith ['\n'] (before ++ [piece.take column]) ∧
      ∃ c, text[offset]? = some c ∧ piece[column]? = some c

/-- A violation is well formed and stands where its rule matches, with the lines around it. -/
structure Positioned (language : Language) (text : Text) (violation : Violation) : Prop where
  wellFormed : violation.WellFormed
  isLine : 1 ≤ violation.line ∧ violation.line ≤ (text.splitOn '\n').length
  /-- A match of the rule begins in the line, with a character that is not blank. -/
  found :
    ∃ found ∈ allMatches language text,
      found.isHarmless = false ∧ found.rule.id = violation.id ∧
        OnLine text violation.line.toNat found.occurrence.offset ∧
        ∃ c, text[found.occurrence.offset]? = some c ∧ Text.isBlank c = false
  context :
    violation.context =
      Text.joinWith ['\n']
        ((linesBetween (text.splitOn '\n') (max 1 (violation.line.toNat - 2))
          (min (text.splitOn '\n').length (violation.line.toNat + 5))).map
            (Text.dropEndWhile (· == '\r')))
  shown : violation.context.allBlank = false

variable {language : Language} {text : Text}

theorem onLine_lineNumber
    {offset : Nat}
    {c : Char}
    (here : text[offset]? = some c)
    (notBlank : Text.isBlank c = false) :
    OnLine text (lineNumber text offset) offset := by
  have notLineFeed : c ≠ '\n' := by
    rintro rfl
    cases notBlank
  obtain ⟨before, piece, after, column, lines, number, front, inLine⟩ :=
    Text.exists_splitOn_eq here notLineFeed
  exact ⟨before, piece, after, column, lines, by rw [lineNumber, number], front, c, here, inLine⟩

theorem OnLine.le_length
    {number offset : Nat}
    (onLine : OnLine text number offset) :
    number ≤ (text.splitOn '\n').length := by
  obtain ⟨before, piece, after, column, lines, rfl, _⟩ := onLine
  rw [lines, List.length_append, List.length_cons]
  omega

/-- The context of a line are the lines around it, without carriage returns at their ends. -/
theorem contextWindow_eq
    {lines : List Text}
    {number : Nat}
    (counted : 1 ≤ number) :
    contextWindow lines number =
      Text.joinWith ['\n']
        ((linesBetween lines (max 1 (number - 2)) (min lines.length (number + 5))).map
          (Text.dropEndWhile (· == '\r'))) := by
  have notNegative : ¬ (number : Int) + linesAfter < 0 := by
    simp only [linesAfter]
    omega
  have stop : ((number : Int) + linesAfter).toNat = number + 5 := by
    simp only [linesAfter]
    omega
  have start : ((number : Int) - 1 - linesBefore).toNat = max 1 (number - 2) - 1 := by
    simp only [linesBefore]
    omega
  have cut : lines.take (number + 5) = lines.take (min lines.length (number + 5)) := by
    rw [List.take_eq_take_min, Nat.min_comm]
  simp only [contextWindow, notNegative, ↓reduceIte, stop, start, linesBetween, cut]

/-- A violation made of a match is well formed, and shows lines that are not all blank. -/
theorem wellFormed_violationOf
    (label : Text)
    {found : Match}
    (isMatch : found ∈ allMatches language text) :
    (violationOf label text (text.splitOn '\n') found).WellFormed ∧
      (violationOf label text (text.splitOn '\n') found).context.allBlank = false := by
  obtain ⟨c, here, notBlank⟩ := exists_getElem?_of_mem_allMatches isMatch
  have shown := contextWindow_not_allBlank here notBlank
  rw [violationOf_eq_reportOf isMatch]
  refine ⟨⟨?_, ?_⟩, shown⟩
  · simp only [reportOf, lineNumber]
    omega
  · intro empty
    simp only [reportOf] at empty
    rw [empty] at shown
    cases shown

theorem positioned_violationOf
    (label : Text)
    {found : Match}
    (isMatch : found ∈ allMatches language text)
    (harmful : found.isHarmless = false) :
    Positioned language text (violationOf label text (text.splitOn '\n') found) := by
  obtain ⟨c, here, notBlank⟩ := exists_getElem?_of_mem_allMatches isMatch
  have onLine := onLine_lineNumber here notBlank
  have counted : 1 ≤ lineNumber text found.occurrence.offset := Nat.succ_pos _
  have wellFormed := wellFormed_violationOf label isMatch
  refine ⟨wellFormed.1, ⟨?_, ?_⟩, ⟨found, isMatch, harmful, rfl, ?_, c, here, notBlank⟩, ?_,
    wellFormed.2⟩
  · exact wellFormed.1.1
  · exact Int.ofNat_le.mpr onLine.le_length
  · exact onLine
  · rw [violationOf_eq_reportOf isMatch]
    exact contextWindow_eq counted

/--
Every violation of a scan is well formed, on a line of the text where a match of its rule
begins, and shows the lines around it. No match would be shown by what it matched: the
lines around it are not all blank, so a violation can always be made of it.
-/
theorem scan_positioned
    (label text : Text)
    (language : Option Language) :
    (∀ violation ∈ (scan label text language).value,
        ∃ spoken, language = some spoken ∧ Positioned spoken text violation) ∧
      ∀ spoken, ∀ found ∈ allMatches spoken text,
        (violationOf label text (text.splitOn '\n') found).WellFormed ∧
          (contextWindow (text.splitOn '\n')
            (lineNumber text found.occurrence.offset)).allBlank = false := by
  constructor
  · intro violation member
    cases language with
    | none => cases member
    | some spoken =>
        obtain ⟨found, isMatch, harmful, rfl⟩ := exists_of_mem_violationsOf member
        exact ⟨spoken, rfl, positioned_violationOf label isMatch harmful⟩
  · intro spoken found isMatch
    obtain ⟨c, here, notBlank⟩ := exists_getElem?_of_mem_allMatches isMatch
    exact ⟨(wellFormed_violationOf label isMatch).1, contextWindow_not_allBlank here notBlank⟩

end TestAudit.Scan
