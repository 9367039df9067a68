import TestAudit.Proofs.Report.Details
import TestAudit.Proofs.Report.Rendering
import TestAudit.Proofs.Text.WrittenNumber

namespace TestAudit.Report

/-!
# The matrix and its rows

The cells of the matrix are read back from its markup. What stands in a cell is an escaped text
or a number and has no character of the markup around it, so it ends where that markup begins;
different texts are escaped differently, and different numbers have different numerals. So a row
ends in one place only, and no text in a cell can be taken for the beginning of another cell or
row.
-/

/-! ## Cells -/

/-- What the cells of one row show. -/
structure Cells where
  id : Text
  description : Text
  total : Nat
  minimum : Nat
  passed : Nat
  failed : Nat
  status : CoverageStatus
  deriving Repr, DecidableEq

/-- The cells of the row of a criterion. -/
def cellsOf (coverage : Coverage) : Cells where
  id := coverage.criterion.id
  description := coverage.criterion.description
  total := coverage.total
  minimum := coverage.criterion.minimum
  passed := coverage.passed
  failed := coverage.failed
  status := coverage.status

/-- The cells of the matrix of a report, row by row. -/
def matrix (report : Report) : List Cells :=
  report.coverage.map cellsOf

variable {mark c d : Char} {text other field value closing rest behind : Text}

/-! ## What stands before a mark -/

/-- A text without a mark ends where the first mark stands. -/
theorem append_mark_inj
    (absent : mark ∉ field)
    (absentThere : mark ∉ value)
    (same : field ++ mark :: rest = value ++ mark :: behind) :
    field = value ∧ rest = behind := by
  induction field generalizing value with
  | nil =>
      cases value with
      | nil => exact ⟨rfl, (List.cons.inj same).2⟩
      | cons d value =>
          rw [(List.cons.inj same).1] at absentThere
          exact (absentThere List.mem_cons_self).elim
  | cons c field inductionHypothesis =>
      cases value with
      | nil =>
          rw [← (List.cons.inj same).1] at absent
          exact (absent List.mem_cons_self).elim
      | cons d value =>
          obtain ⟨rfl, sameRest⟩ := List.cons.inj same
          obtain ⟨rfl, rfl⟩ := inductionHypothesis (List.not_mem_of_not_mem_cons absent)
            (List.not_mem_of_not_mem_cons absentThere) sameRest
          exact ⟨rfl, rfl⟩

theorem append_closing_inj
    (opens : closing.head? = some mark)
    (absent : mark ∉ field)
    (absentThere : mark ∉ value)
    (same : field ++ (closing ++ rest) = value ++ (closing ++ behind)) :
    field = value ∧ rest = behind := by
  obtain ⟨tail, rfl⟩ := List.head?_eq_some_iff.mp opens
  obtain ⟨sameField, sameRest⟩ := append_mark_inj absent absentThere same
  exact ⟨sameField, List.append_cancel_left sameRest⟩

/-! ## Escaped texts -/

/-- The names of the entities inside blocks of markup, each with its character. -/
def entityNames : List (Char × Text) :=
  [('&', "amp"), ('<', "lt"), ('>', "gt"), ('\x27', "#39"), ('\x22', "#34")]

/-- A character other than an ampersand stands for itself, or its entity is written. -/
theorem entityFor_cases
    (c : Char) :
    (c ≠ '&' ∧ Text.entityFor blockQuotes c = [c]) ∨
      ∃ name, (c, name) ∈ entityNames ∧
        Text.entityFor blockQuotes c = '&' :: (name ++ [';']) := by
  unfold Text.entityFor
  split_ifs with isAmpersand isOpening isClosing isSingle isDouble
  · exact Or.inr ⟨"amp", by simp [entityNames, isAmpersand], rfl⟩
  · exact Or.inr ⟨"lt", by simp [entityNames, isOpening], rfl⟩
  · exact Or.inr ⟨"gt", by simp [entityNames, isClosing], rfl⟩
  · exact Or.inr ⟨"#39", by simp [entityNames, isSingle], rfl⟩
  · exact Or.inr ⟨"#34", by simp [entityNames, isDouble], rfl⟩
  · exact Or.inl ⟨isAmpersand, rfl⟩

theorem entityFor_append_inj
    (same : Text.entityFor blockQuotes c ++ rest = Text.entityFor blockQuotes d ++ behind) :
    c = d ∧ rest = behind := by
  have closed : ∀ entry ∈ entityNames, ';' ∉ entry.2 := by decide
  have different : ∀ entry ∈ entityNames, ∀ other ∈ entityNames,
      entry.2 = other.2 → entry.1 = other.1 := by
    decide
  rcases entityFor_cases c with ⟨notAmpersand, isPlain⟩ | ⟨name, isEntity, isWritten⟩
  · rcases entityFor_cases d with ⟨_, isPlainThere⟩ | ⟨_, _, isWrittenThere⟩
    · rw [isPlain, isPlainThere] at same
      exact List.cons.inj same
    · rw [isPlain, isWrittenThere] at same
      exact (notAmpersand (List.cons.inj same).1).elim
  · rcases entityFor_cases d with ⟨notAmpersand, isPlainThere⟩ | ⟨label, isLabel, isWrittenThere⟩
    · rw [isWritten, isPlainThere] at same
      exact (notAmpersand (List.cons.inj same).1.symm).elim
    · rw [isWritten, isWrittenThere, List.cons_append, List.cons_append, List.append_assoc,
        List.append_assoc] at same
      obtain ⟨sameName, sameRest⟩ := append_mark_inj (closed _ isEntity) (closed _ isLabel)
        (List.cons.inj same).2
      exact ⟨different _ isEntity _ isLabel sameName, sameRest⟩

theorem escaped_cons
    (c : Char)
    (text : Text) :
    escaped (c :: text) = Text.entityFor blockQuotes c ++ escaped text :=
  List.flatMap_cons

theorem escaped_cons_ne_nil
    (c : Char)
    (text : Text) :
    escaped (c :: text) ≠ [] := by
  rw [escaped_cons]
  rcases entityFor_cases c with ⟨_, isPlain⟩ | ⟨_, _, isWritten⟩
  · rw [isPlain]
    nofun
  · rw [isWritten]
    nofun

theorem escaped_inj
    (same : escaped text = escaped other) :
    text = other := by
  induction text generalizing other with
  | nil =>
      cases other with
      | nil => rfl
      | cons d other => exact (escaped_cons_ne_nil d other same.symm).elim
  | cons c text inductionHypothesis =>
      cases other with
      | nil => exact (escaped_cons_ne_nil c text same).elim
      | cons d other =>
          rw [escaped_cons, escaped_cons] at same
          obtain ⟨rfl, sameRest⟩ := entityFor_append_inj same
          rw [inductionHypothesis sameRest]

/-! ## What stands in a cell -/

/-- An escaped text ends where markup begins. -/
theorem escaped_append_inj
    (closes : closing.head?.any isMarkup = true)
    (same : escaped text ++ (closing ++ rest) = escaped other ++ (closing ++ behind)) :
    text = other ∧ rest = behind := by
  obtain ⟨mark, opens, markup⟩ := (Option.any_eq_true _ _).mp closes
  obtain ⟨sameEscaped, sameRest⟩ := append_closing_inj opens
    (not_mem_escaped_of_isMarkup markup text) (not_mem_escaped_of_isMarkup markup other) same
  exact ⟨escaped_inj sameEscaped, sameRest⟩

/-- A number ends where no digit follows. -/
theorem ofNat_append_inj
    {number figure : Nat}
    (closes : closing.head?.any (!·.isDigit) = true)
    (same : Text.ofNat number ++ (closing ++ rest) = Text.ofNat figure ++ (closing ++ behind)) :
    number = figure ∧ rest = behind := by
  obtain ⟨mark, opens, notDigit⟩ := (Option.any_eq_true _ _).mp closes
  obtain ⟨tail, rfl⟩ := List.head?_eq_some_iff.mp opens
  have noDigit (rest : Text) : Text.NoDigit (mark :: tail ++ rest) := by
    rintro _ _ ⟨⟩
    simpa using notDigit
  obtain ⟨sameNumber, sameRest⟩ := Text.ofNat_append_inj (noDigit rest) (noDigit behind) same
  exact ⟨sameNumber, List.append_cancel_left sameRest⟩

/-- Badges differ where their classes do. -/
theorem badge_append_inj
    {kind sort label tag : Text}
    (noHyphen : '-' ∉ kind)
    (noHyphenThere : '-' ∉ sort)
    (same : badge kind label ++ rest = badge sort tag ++ behind) :
    kind = sort := by
  have opens : ("-badge\">" : Text).head? = some '-' := by decide
  unfold badge at same
  simp only [List.append_assoc] at same
  have fromClass := List.append_cancel_left same
  exact (append_closing_inj opens noHyphen noHyphenThere fromClass).1

/-- The class of the badge for a verdict. -/
def verdictClass : CoverageStatus → Text
  | .pass => "pass"
  | .fail => "fail"
  | .belowMinimum => "skip"

theorem exists_verdictBadge_eq
    (status : CoverageStatus) :
    ∃ label, verdictBadge status = badge (verdictClass status) label := by
  cases status <;> exact ⟨_, rfl⟩

theorem verdictBadge_append_inj
    {status verdict : CoverageStatus}
    (same : verdictBadge status ++ rest = verdictBadge verdict ++ behind) :
    status = verdict ∧ rest = behind := by
  have noHyphen (status : CoverageStatus) : '-' ∉ verdictClass status := by
    cases status <;> decide
  have sameStatus : status = verdict := by
    obtain ⟨label, isBadge⟩ := exists_verdictBadge_eq status
    obtain ⟨tag, isBadgeThere⟩ := exists_verdictBadge_eq verdict
    rw [isBadge, isBadgeThere] at same
    have sameClass := badge_append_inj (noHyphen status) (noHyphen verdict) same
    revert sameClass
    cases status <;> cases verdict <;> decide
  rw [sameStatus] at same
  exact ⟨sameStatus, List.append_cancel_left same⟩

/-! ## Rows -/

theorem eq_ofNat_of_numeral
    {number : Nat}
    (shown : numeral number = .ok text) :
    text = Text.ofNat number := by
  unfold numeral at shown
  split at shown
  · cases shown
  · cases shown
    rfl

/-- The cells of a row are read back from its markup, whatever stands behind the row. -/
theorem matrixRow_append_inj
    {first second : Coverage}
    (isRow : matrixRow first = .ok text)
    (isRowThere : matrixRow second = .ok other)
    (same : text ++ rest = other ++ behind) :
    cellsOf first = cellsOf second ∧ rest = behind := by
  obtain ⟨minimum, isMinimum, shape⟩ := Outcome.bind_eq_ok_iff.mp isRow
  obtain ⟨least, isLeast, shapeThere⟩ := Outcome.bind_eq_ok_iff.mp isRowThere
  cases shape
  cases shapeThere
  rw [eq_ofNat_of_numeral isMinimum, eq_ofNat_of_numeral isLeast] at same
  simp only [markupLines, List.flatMap_cons, List.flatMap_nil, List.append_assoc] at same
  -- Cell by cell, up to the end of the row; the identifier stands in two places.
  obtain ⟨sameId, same⟩ := escaped_append_inj rfl (List.append_cancel_left same)
  obtain ⟨_, same⟩ :=
    escaped_append_inj rfl (List.append_cancel_left (List.append_cancel_left same))
  obtain ⟨sameDescription, same⟩ :=
    escaped_append_inj rfl (List.append_cancel_left (List.append_cancel_left same))
  obtain ⟨sameTotal, same⟩ :=
    ofNat_append_inj rfl (List.append_cancel_left (List.append_cancel_left same))
  obtain ⟨sameMinimum, same⟩ := ofNat_append_inj rfl same
  obtain ⟨samePassed, same⟩ :=
    ofNat_append_inj rfl (List.append_cancel_left (List.append_cancel_left same))
  obtain ⟨sameFailed, same⟩ :=
    ofNat_append_inj rfl (List.append_cancel_left (List.append_cancel_left same))
  obtain ⟨sameStatus, same⟩ :=
    verdictBadge_append_inj (List.append_cancel_left (List.append_cancel_left same))
  refine ⟨?_, by simpa using same⟩
  rw [cellsOf, cellsOf, sameId, sameDescription, sameTotal, sameMinimum, samePassed, sameFailed,
    sameStatus]

theorem matrixRow_congr
    {first second : Coverage}
    (same : cellsOf first = cellsOf second) :
    matrixRow first = matrixRow second := by
  obtain ⟨sameId, sameDescription, sameTotal, sameMinimum, samePassed, sameFailed, sameStatus⟩ :=
    Cells.mk.inj same
  rw [matrixRow, matrixRow, sameId, sameDescription, sameTotal, sameMinimum, samePassed,
    sameFailed, sameStatus]

theorem matrixRow_ne_nil
    {coverage : Coverage}
    (isRow : matrixRow coverage = .ok text) :
    text ≠ [] := by
  obtain ⟨minimum, _, shape⟩ := Outcome.bind_eq_ok_iff.mp isRow
  cases shape
  exact List.cons_ne_nil _ _

/-- Rows are read back one after the other, up to the end of the matrix. -/
theorem map_cellsOf_of_inOrder
    {rows others : List Coverage}
    (isShown : inOrder matrixRow rows = .ok text)
    (isShownThere : inOrder matrixRow others = .ok text) :
    rows.map cellsOf = others.map cellsOf := by
  -- No row is empty, so neither list of rows ends before the other.
  induction rows generalizing others text with
  | nil =>
      cases isShown
      cases others with
      | nil => rfl
      | cons second others =>
          obtain ⟨row, isRow, onward⟩ := Outcome.bind_eq_ok_iff.mp isShownThere
          obtain ⟨behind, _, shape⟩ := Outcome.bind_eq_ok_iff.mp onward
          have isNil := Except.ok.inj shape
          exact (matrixRow_ne_nil isRow (List.append_eq_nil_iff.mp isNil).1).elim
  | cons first rows inductionHypothesis =>
      obtain ⟨row, isRow, onward⟩ := Outcome.bind_eq_ok_iff.mp isShown
      obtain ⟨behind, isBehind, shape⟩ := Outcome.bind_eq_ok_iff.mp onward
      cases shape
      cases others with
      | nil =>
          have isNil := Except.ok.inj isShownThere
          exact (matrixRow_ne_nil isRow (List.append_eq_nil_iff.mp isNil.symm).1).elim
      | cons second others =>
          obtain ⟨rowThere, isRowThere, onwardThere⟩ := Outcome.bind_eq_ok_iff.mp isShownThere
          obtain ⟨behindThere, isBehindThere, shape⟩ := Outcome.bind_eq_ok_iff.mp onwardThere
          obtain ⟨sameCells, rfl⟩ :=
            matrixRow_append_inj isRowThere isRow (Except.ok.inj shape)
          rw [List.map_cons, List.map_cons, sameCells,
            inductionHypothesis isBehind isBehindThere]

theorem inOrder_congr
    {rows others : List Coverage}
    (same : rows.map cellsOf = others.map cellsOf) :
    inOrder matrixRow rows = inOrder matrixRow others := by
  induction rows generalizing others with
  | nil => rw [List.map_eq_nil_iff.mp same.symm]
  | cons first rows inductionHypothesis =>
      obtain ⟨second, others, rfl, sameCells, sameRest⟩ := List.map_eq_cons_iff.mp same.symm
      rw [inOrder, inOrder, matrixRow_congr sameCells, inductionHypothesis sameRest.symm]

/-! ## The matrix of a report -/

/-- Reports show the same rows just when the cells of their matrices are the same. -/
theorem matrixRows_eq_iff
    {first second : Report}
    (isShown : matrixRows first = .ok text)
    (isShownThere : matrixRows second = .ok other) :
    text = other ↔ first.matrix = second.matrix := by
  obtain ⟨rows, areRows, shape⟩ := Outcome.bind_eq_ok_iff.mp isShown
  obtain ⟨others, areOthers, shapeThere⟩ := Outcome.bind_eq_ok_iff.mp isShownThere
  cases shape
  cases shapeThere
  rw [List.append_right_inj]
  constructor
  · rintro rfl
    exact map_cellsOf_of_inOrder areRows areOthers
  · intro same
    rw [inOrder_congr same, areOthers] at areRows
    exact (Except.ok.inj areRows).symm

theorem matrixRows_of_fragments
    {report : Report}
    {values : Placeholder → Text}
    (rendered : fragments report = .ok values) :
    matrixRows report = .ok (values .matrixRows) := by
  obtain ⟨_, _, rest⟩ := Outcome.bind_eq_ok_iff.mp rendered
  obtain ⟨rows, shown, rest⟩ := Outcome.bind_eq_ok_iff.mp rest
  obtain ⟨_, _, rest⟩ := Outcome.bind_eq_ok_iff.mp rest
  obtain ⟨_, _, same⟩ := Outcome.bind_eq_ok_iff.mp rest
  cases same
  exact shown

/--
The fragment with the rows of the matrix determines the matrix: two reports, compiled or not,
have the same fragment just when they have equally many rows and each row has the same
identifier, description, numbers and verdict as the one in its place, whatever is in the
descriptions.
-/
theorem matrix_faithful
    {first second : Report}
    {values others : Placeholder → Text}
    (rendered : fragments first = .ok values)
    (renderedThere : fragments second = .ok others) :
    values .matrixRows = others .matrixRows ↔ first.matrix = second.matrix :=
  matrixRows_eq_iff (matrixRows_of_fragments rendered) (matrixRows_of_fragments renderedThere)

/-- A description that imitates a row, and one that is written as the other is shown. -/
theorem matrix_faithful_of_imitation :
    let records : List TestRecord := [
      { title := "AC-1: Loads", criterion := some "AC-1".toList, status := .passed }]
    let imitating : Catalog := {
      criteria := [
        { id := "AC-1", description := "</td></tr>\n<tr>\x22", provenance := .markdown }]
    }
    let written : Catalog := {
      criteria := [
        { id := "AC-1", description := "&lt;/td&gt;&lt;/tr&gt;\n&lt;tr&gt;&#34;",
          provenance := .markdown }]
    }
    ∃ first second values others,
      (compile "Demo" "T" records imitating []).value = .ok first ∧
        (compile "Demo" "T" records written []).value = .ok second ∧
        fragments first = .ok values ∧ fragments second = .ok others ∧
        values .matrixRows ≠ others .matrixRows := by
  intro records imitating written
  have first : ∀ report,
      (compile "Demo" "T" records imitating []).value = .ok report → Renderable report := by
    rintro _ ⟨rfl⟩
    decide +kernel
  have second : ∀ report,
      (compile "Demo" "T" records written []).value = .ok report → Renderable report := by
    rintro _ ⟨rfl⟩
    decide +kernel
  obtain ⟨values, rendered⟩ := exists_fragments_iff.mpr (first _ rfl)
  obtain ⟨others, renderedThere⟩ := exists_fragments_iff.mpr (second _ rfl)
  refine ⟨_, _, values, others, rfl, rfl, rendered, renderedThere, fun same => ?_⟩
  exact absurd ((matrix_faithful rendered renderedThere).mp same) (by decide +kernel)

end TestAudit.Report
