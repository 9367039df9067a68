import TestAudit.Criteria.Document
import TestAudit.Proofs.Criteria.Title
import TestAudit.Proofs.Text.CharacterClass
import TestAudit.Proofs.Text.LineEnd

namespace TestAudit

/-!
# Where criteria are described

A title describes a criterion when it begins with an identifier, and with separators and a
description behind it. A document does so wherever a line begins with the mark of a heading
or of a list item, or with none, and an identifier follows that may stand between asterisks.

What a document describes is said here without cutting it into lines. But nothing in it goes
over the end of a line, so what each line defines for itself is what the document describes.
-/

namespace Title

/-! ## Separators and the line behind them -/

/-- A text begins with separators, at least one, and a line follows that is not empty. -/
structure Cuts (separates : Char → Bool) (text separators line : Text) : Prop where
  shape : ∃ behind, Text.AtLineEnd behind ∧ text = separators ++ (line ++ behind)
  separators_ne_nil : separators ≠ []
  areSeparators : ∀ c ∈ separators, separates c = true
  line_ne_nil : line ≠ []
  oneLine : '\n' ∉ line

/-- The line behind as many separators as can stand before one. -/
def IsLineAfter (separates : Char → Bool) (text line : Text) : Prop :=
  ∃ separators,
    Cuts separates text separators line ∧
      ∀ others rest, Cuts separates text others rest → others.length ≤ separators.length

variable {separates : Char → Bool} {text separators line behind : Text}

/-- The first line of a text is the part without a line feed up to the end of a line. -/
theorem firstLine_append
    (oneLine : '\n' ∉ line)
    (atEnd : Text.AtLineEnd behind) :
    firstLine (line ++ behind) = line := by
  have inLine : ∀ c ∈ line, (c != '\n') = true := by
    rintro c member
    exact bne_iff_ne.mpr fun isEnd => oneLine (isEnd ▸ member)
  rw [firstLine, List.takeWhile_append_of_pos inLine]
  obtain rfl | ⟨rest, rfl⟩ := atEnd <;> simp

theorem exists_firstLine_append
    (text : Text) :
    '\n' ∉ firstLine text ∧
      ∃ behind, Text.AtLineEnd behind ∧ text = firstLine text ++ behind := by
  refine ⟨fun member => ?_, text.dropWhile (· != '\n'), ?_,
    List.takeWhile_append_dropWhile.symm⟩
  · have isOther := List.all_eq_true.mp List.all_takeWhile _ member
    cases isOther
  · cases shape : text.dropWhile (· != '\n') with
    | nil => exact Or.inl rfl
    | cons c rest =>
        have first := @List.head?_dropWhile_not _ (· != '\n') text
        rw [shape] at first
        obtain rfl : c = '\n' := by simpa using first
        exact Or.inr ⟨rest, rfl⟩

namespace Cuts

theorem prefix_takeWhile
    (cuts : Cuts separates text separators line) :
    separators <+: text.takeWhile separates := by
  obtain ⟨behind, _, rfl⟩ := cuts.shape
  rw [List.takeWhile_append_of_pos cuts.areSeparators]
  exact List.prefix_append _ _

/-- The line begins with a character that is no line feed. -/
theorem exists_getElem?
    (cuts : Cuts separates text separators line) :
    ∃ c, text[separators.length]? = some c ∧ c ≠ '\n' := by
  obtain ⟨behind, _, rfl⟩ := cuts.shape
  obtain ⟨c, rest, rfl⟩ := List.exists_cons_of_ne_nil cuts.line_ne_nil
  refine ⟨c, ?_, fun isEnd => cuts.oneLine (isEnd ▸ List.mem_cons_self)⟩
  rw [List.getElem?_append_right (Nat.le_refl _), Nat.sub_self]
  rfl

/-- As many separators leave the same line. -/
theorem line_unique
    {others other : Text}
    (cuts : Cuts separates text separators line)
    (cutsOther : Cuts separates text others other)
    (sameLength : separators.length = others.length) :
    line = other := by
  obtain ⟨behind, atEnd, shape⟩ := cuts.shape
  obtain ⟨behindOther, endsOther, shapeOther⟩ := cutsOther.shape
  have same := (List.append_inj (shape.symm.trans shapeOther) sameLength).2
  rw [← firstLine_append cuts.oneLine atEnd, same,
    firstLine_append cutsOther.oneLine endsOther]

end Cuts

theorem IsLineAfter.unique
    {other : Text}
    (isLine : IsLineAfter separates text line)
    (isOther : IsLineAfter separates text other) :
    line = other := by
  obtain ⟨separators, cuts, most⟩ := isLine
  obtain ⟨others, cutsOther, mostOther⟩ := isOther
  exact cuts.line_unique cutsOther (Nat.le_antisymm (mostOther _ _ cuts) (most _ _ cutsOther))

theorem IsLineAfter.separates_head
    (isLine : IsLineAfter separates text line) :
    ∀ c ∈ text.head?, separates c = true := by
  obtain ⟨separators, cuts, _⟩ := isLine
  obtain ⟨behind, _, rfl⟩ := cuts.shape
  obtain ⟨c, others, rfl⟩ := List.exists_cons_of_ne_nil cuts.separators_ne_nil
  rintro _ ⟨⟩
  exact cuts.areSeparators c List.mem_cons_self

/-- Where something is left behind all separators, the line begins there. -/
theorem isLineAfter_dropWhile
    (known : separates '\n' = true ∨ '\n' ∉ text)
    (separated : text.takeWhile separates ≠ [])
    (isLeft : text.dropWhile separates ≠ []) :
    IsLineAfter separates text (firstLine (text.dropWhile separates)) := by
  have areSeparators := List.all_eq_true.mp (@List.all_takeWhile _ separates text)
  obtain ⟨oneLine, behind, atEnd, isRest⟩ := exists_firstLine_append (text.dropWhile separates)
  refine ⟨text.takeWhile separates, ⟨⟨behind, atEnd, ?_⟩, separated, areSeparators, ?_, oneLine⟩,
    fun _ _ cuts => cuts.prefix_takeWhile.length_le⟩
  · rw [← isRest, List.takeWhile_append_dropWhile]
  · obtain ⟨c, rest, shape⟩ := List.exists_cons_of_ne_nil isLeft
    have stops := @List.head?_dropWhile_not _ separates text
    rw [shape] at stops ⊢
    have notEnd : (c != '\n') = true := by
      refine bne_iff_ne.mpr ?_
      rintro rfl
      obtain separatesEnd | absent := known
      · simp [separatesEnd] at stops
      · exact absent ((List.dropWhile_sublist separates).subset (shape ▸ List.mem_cons_self))
    simp [firstLine, List.takeWhile_cons_of_pos, notEnd]

/-- Where only separators are left, the last one that is no line feed is the line. -/
theorem isLineAfter_last
    {ends : Text}
    {c : Char}
    (separated : separators ≠ [])
    (areSeparators : ∀ d ∈ separators, separates d = true)
    (notEnd : c ≠ '\n')
    (areEnds : ∀ d ∈ ends, d = '\n') :
    IsLineAfter separates (separators ++ c :: ends) [c] := by
  have atEnd : Text.AtLineEnd ends := by
    cases ends with
    | nil => exact Or.inl rfl
    | cons d rest => exact Or.inr ⟨rest, by rw [areEnds d List.mem_cons_self]⟩
  refine ⟨separators, ⟨⟨ends, atEnd, rfl⟩, separated, areSeparators, List.cons_ne_nil _ _, ?_⟩, ?_⟩
  · simpa using notEnd.symm
  · intro longer rest cuts
    obtain ⟨d, here, other⟩ := cuts.exists_getElem?
    refine Nat.le_of_not_lt fun beyond => other (areEnds d ?_)
    obtain ⟨place, isPlace⟩ := Nat.exists_eq_add_of_lt beyond
    rw [List.getElem?_append_right (Nat.le_of_lt beyond), isPlace, Nat.add_assoc,
      Nat.add_sub_cancel_left, List.getElem?_cons_succ] at here
    exact List.mem_of_getElem? here

theorem isLineAfter_of_lineAfter?
    (known : separates '\n' = true ∨ '\n' ∉ text)
    (found : lineAfter? separates text = some line) :
    IsLineAfter separates text line := by
  unfold lineAfter? at found
  split at found
  · cases found
  next first others isTaken isRest =>
    obtain ⟨c, isLast, rfl⟩ := Option.map_eq_some_iff.mp found
    obtain ⟨notEnd, ends, before, shape, areEnds⟩ := List.find?_eq_some_iff_append.mp isLast
    have isOthers : others = before.reverse ++ c :: ends.reverse := by
      simpa using congrArg List.reverse shape
    have areSeparators := List.all_eq_true.mp (@List.all_takeWhile _ separates text)
    have isText : text = first :: before.reverse ++ c :: ends.reverse := by
      rw [List.cons_append, ← isOthers, ← isTaken, ← List.append_nil (text.takeWhile _), ← isRest,
        List.takeWhile_append_dropWhile]
    rw [isTaken, isOthers, ← List.cons_append] at areSeparators
    rw [isText]
    refine isLineAfter_last (List.cons_ne_nil _ _)
      (fun d member => areSeparators d (List.mem_append_left _ member))
      (bne_iff_ne.mp notEnd) fun d member => ?_
    simpa using areEnds d (List.mem_reverse.mp member)
  next first others isTaken isLeft =>
    cases found
    exact isLineAfter_dropWhile known (isTaken ▸ List.cons_ne_nil _ _) isLeft

/-- A text that separators and a line can be cut from has a line after separators. -/
theorem Cuts.exists_lineAfter?
    (cuts : Cuts separates text separators line) :
    ∃ found, lineAfter? separates text = some found := by
  have parts := @List.takeWhile_append_dropWhile _ separates text
  have atLeast := cuts.prefix_takeWhile
  unfold lineAfter?
  split
  next isTaken =>
    rw [isTaken, List.prefix_nil] at atLeast
    exact (cuts.separators_ne_nil atLeast).elim
  next first others isTaken isRest =>
    rw [isTaken, isRest, List.append_nil] at parts
    obtain ⟨c, here, notEnd⟩ := cuts.exists_getElem?
    obtain ⟨place, isPlace⟩ := Nat.exists_eq_succ_of_ne_zero
      (Nat.ne_of_gt (List.length_pos_iff.mpr cuts.separators_ne_nil))
    rw [← parts, isPlace, List.getElem?_cons_succ] at here
    have exists_last : (others.reverse.find? (· != '\n')).isSome := by
      refine List.find?_isSome.mpr ⟨c, List.mem_reverse.mpr (List.mem_of_getElem? here), ?_⟩
      exact bne_iff_ne.mpr notEnd
    obtain ⟨d, isLast⟩ := Option.isSome_iff_exists.mp exists_last
    rw [isLast]
    exact ⟨[d], rfl⟩
  next => exact ⟨_, rfl⟩

/-- The line after the separators is read, where a line feed separates or does not occur. -/
theorem lineAfter?_eq_some_iff
    (known : separates '\n' = true ∨ '\n' ∉ text) :
    lineAfter? separates text = some line ↔ IsLineAfter separates text line := by
  constructor
  · exact isLineAfter_of_lineAfter? known
  · intro isLine
    obtain ⟨separators, cuts, _⟩ := id isLine
    obtain ⟨found, isFound⟩ := cuts.exists_lineAfter?
    rw [isFound, isLine.unique (isLineAfter_of_lineAfter? known isFound)]

/-- Where a line feed does not separate, separators and a line are cut from the first line. -/
theorem cuts_append_iff
    {front : Text}
    (noEnd : separates '\n' = false)
    (oneLine : '\n' ∉ front)
    (atEnd : Text.AtLineEnd behind) :
    Cuts separates (front ++ behind) separators line ↔ Cuts separates front separators line := by
  constructor
  · intro cuts
    obtain ⟨rest, endsRest, shape⟩ := cuts.shape
    have noEnds : '\n' ∉ separators ++ line := by
      rw [List.mem_append, not_or]
      refine ⟨fun member => ?_, cuts.oneLine⟩
      rw [cuts.areSeparators _ member] at noEnd
      cases noEnd
    have isFront : front = separators ++ line := by
      rw [← firstLine_append oneLine atEnd, shape, ← List.append_assoc,
        firstLine_append noEnds endsRest]
    exact { cuts with shape := ⟨[], Or.inl rfl, by rw [List.append_nil, isFront]⟩ }
  · intro cuts
    obtain ⟨rest, endsRest, rfl⟩ := cuts.shape
    obtain rfl | ⟨more, rfl⟩ := endsRest
    · refine { cuts with shape := ⟨behind, atEnd, ?_⟩ }
      rw [List.append_nil, List.append_assoc]
    · exact (oneLine (by simp)).elim

theorem isLineAfter_append_iff
    {front : Text}
    (noEnd : separates '\n' = false)
    (oneLine : '\n' ∉ front)
    (atEnd : Text.AtLineEnd behind) :
    IsLineAfter separates (front ++ behind) line ↔ IsLineAfter separates front line := by
  simp only [IsLineAfter, cuts_append_iff noEnd oneLine atEnd]

/-! ## Titles -/

/-- A title begins with an identifier, and a description follows, which may be blank. -/
inductive Tells : Text → Criterion → Prop where
  | intro {id rest line : Text}
      (identifier : IsIdentifier id)
      (isLine : IsLineAfter isSeparator rest line) :
      Tells (id ++ rest) { id, description := line.trim, provenance := .titles }

theorem IsIdentifier.shape
    {id : Text}
    (identifier : IsIdentifier id) :
    ∃ digit digits, id = 'A' :: 'C' :: '-' :: digit :: digits := by
  obtain ⟨digits, rfl, notEmpty, _⟩ := identifier
  obtain ⟨digit, digits, rfl⟩ := List.exists_cons_of_ne_nil notEmpty
  exact ⟨digit, digits, rfl⟩

theorem IsIdentifier.oneLine
    {id : Text}
    (identifier : IsIdentifier id) :
    '\n' ∉ id := by
  obtain ⟨digits, rfl, _, areDigits⟩ := identifier
  rw [List.mem_append, not_or]
  exact ⟨by decide, fun member => absurd (areDigits _ member) (by decide)⟩

/-- An identifier is read up to a character that is no digit. -/
theorem idAtStart?_append
    {id rest : Text}
    (identifier : IsIdentifier id)
    (noDigit : ∀ c ∈ rest.head?, Text.isDigit c = false) :
    idAtStart? (id ++ rest) = some (id, rest) := by
  obtain ⟨digits, rfl, notEmpty, areDigits⟩ := identifier
  obtain ⟨digit, digits, rfl⟩ := List.exists_cons_of_ne_nil notEmpty
  have taken := Text.takeWhile_append_of_head areDigits noDigit
  have dropped := Text.dropWhile_append_of_head areDigits noDigit
  rw [idAtStart?, List.append_assoc, Text.afterStart?_eq_some_iff.mpr rfl]
  dsimp only
  rw [taken, dropped]

theorem isDigit_of_isSeparator
    {c : Char}
    (isSeparator : isSeparator c = true) :
    Text.isDigit c = false := by
  rw [Title.isSeparator, Bool.or_eq_true, beq_iff_eq] at isSeparator
  obtain rfl | blank := isSeparator
  · decide
  · exact Text.isDigit_of_isBlank blank

/-- A title defines the criterion that it tells. -/
theorem definition?_eq_some_iff
    {title : Text}
    {criterion : Criterion} :
    definition? title = some criterion ↔ Tells title criterion := by
  have known (rest : Text) : isSeparator '\n' = true ∨ '\n' ∉ rest := Or.inl (by decide)
  constructor
  · intro defines
    obtain ⟨⟨id, description⟩, described, rfl⟩ := Option.map_eq_some_iff.mp defines
    unfold described? at described
    split at described
    · cases described
    next found =>
      obtain ⟨line, isLine, same⟩ := Option.map_eq_some_iff.mp described
      cases same
      obtain ⟨rfl, identifier⟩ := idAtStart?_eq_some found
      exact .intro identifier ((lineAfter?_eq_some_iff (known _)).mp isLine)
  · rintro ⟨identifier, isLine⟩
    have noDigit : ∀ c ∈ _, Text.isDigit c = false := fun c isFirst =>
      isDigit_of_isSeparator (isLine.separates_head c isFirst)
    rw [definition?, described?, idAtStart?_append identifier noDigit]
    dsimp only
    rw [(lineAfter?_eq_some_iff (known _)).mpr isLine]
    rfl

end Title

/-! ## Documents -/

namespace Document

/-- The mark of a heading or of a list item with the gap behind it, or nothing. -/
inductive IsMark : Text → Prop where
  | none : IsMark []
  | heading {signs gap : Text}
      (notEmpty : signs ≠ [])
      (areSigns : ∀ c ∈ signs, c = '#')
      (isGap : ∀ c ∈ gap, isGap c = true) :
      IsMark (signs ++ gap)
  | item {sign : Char} {gap : Text}
      (isSign : sign = '-' ∨ sign = '*')
      (isGap : ∀ c ∈ gap, isGap c = true) :
      IsMark (sign :: gap)

/-- The description in a line: without asterisks, and without blanks at its ends. -/
def descriptionIn (line : Text) : Text :=
  Text.trim (line.filter (!isAsterisk ·))

/-- A text begins with a mark, an identifier that may stand between asterisks, and a description. -/
inductive Tells : Text → Criterion → Prop where
  | intro {mark before id behind rest line : Text}
      (isMark : IsMark mark)
      (areBefore : ∀ c ∈ before, isAsterisk c = true)
      (identifier : Title.IsIdentifier id)
      (areBehind : ∀ c ∈ behind, isAsterisk c = true)
      (isLine : Title.IsLineAfter isSeparator rest line)
      (notEmpty : descriptionIn line ≠ []) :
      Tells (mark ++ (before ++ (id ++ (behind ++ rest))))
        { id, description := descriptionIn line, provenance := .markdown }

/-- A criterion is described in a document behind some text with which a line ends. -/
def Describes (text before : Text) (criterion : Criterion) : Prop :=
  Text.EndsLine before ∧ ∃ rest, text = before ++ rest ∧ Tells rest criterion

/-! ### Lines that define criteria -/

theorem exists_mark
    (line : Text) :
    ∃ mark, IsMark mark ∧ line = mark ++ withoutMark line := by
  unfold withoutMark
  split
  next rest =>
    obtain ⟨signs, areSigns, isRest⟩ := Text.exists_append_dropWhile (· == '#') rest
    obtain ⟨gap, areGap, isBehind⟩ := Text.exists_append_dropWhile isGap (rest.dropWhile (· == '#'))
    refine ⟨'#' :: signs ++ gap, .heading (List.cons_ne_nil _ _) ?_ areGap, ?_⟩
    · exact List.forall_mem_cons.mpr ⟨rfl, fun c member => eq_of_beq (areSigns c member)⟩
    · rw [List.append_assoc, ← isBehind, List.cons_append, ← isRest]
  next rest =>
    obtain ⟨gap, areGap, isRest⟩ := Text.exists_append_dropWhile isGap rest
    exact ⟨'-' :: gap, .item (Or.inl rfl) areGap, congrArg _ isRest⟩
  next rest =>
    obtain ⟨gap, areGap, isRest⟩ := Text.exists_append_dropWhile isGap rest
    exact ⟨'*' :: gap, .item (Or.inr rfl) areGap, congrArg _ isRest⟩
  next => exact ⟨[], .none, rfl⟩

theorem separator_cases
    {c : Char}
    (separates : isSeparator c = true) :
    c = ':' ∨ c = ' ' ∨ c = '\t' := by
  simpa [isSeparator, isGap] using separates

/-- Without its mark and its asterisks, a line begins with its identifier. -/
theorem dropWhile_withoutMark
    {mark before id : Text}
    (isMark : IsMark mark)
    (areBefore : ∀ c ∈ before, isAsterisk c = true)
    (identifier : Title.IsIdentifier id)
    (rest : Text) :
    (withoutMark (mark ++ (before ++ (id ++ rest)))).dropWhile isAsterisk = id ++ rest := by
  obtain ⟨digit, digits, rfl⟩ := identifier.shape
  generalize shape : 'A' :: 'C' :: '-' :: digit :: digits ++ rest = text
  have isLetter : ∀ c ∈ text.head?, c = 'A' := by
    rintro c isFirst
    rw [← shape] at isFirst
    exact (Option.some.inj isFirst).symm
  have atAsterisk {before : Text} (areBefore : ∀ c ∈ before, isAsterisk c = true) :
      ∀ c ∈ (before ++ text).head?, c = '*' ∨ c = 'A' := by
    intro c isFirst
    exact (Text.head_append_cases areBefore c isFirst).imp eq_of_beq (isLetter c)
  have noAsterisk {before : Text} (areBefore : ∀ c ∈ before, isAsterisk c = true) :
      (before ++ text).dropWhile isAsterisk = text := by
    refine Text.dropWhile_append_of_head areBefore fun c isFirst => ?_
    rw [isLetter c isFirst]
    decide
  have noGap {gap before : Text} (areGap : ∀ c ∈ gap, isGap c = true)
      (areBefore : ∀ c ∈ before, isAsterisk c = true) :
      (gap ++ (before ++ text)).dropWhile isGap = before ++ text := by
    refine Text.dropWhile_append_of_head areGap fun c isFirst => ?_
    obtain rfl | rfl := atAsterisk areBefore c isFirst <;> decide
  cases isMark with
  | none =>
      cases before with
      | nil =>
          rw [← shape]
          rfl
      | cons c others =>
          -- The first asterisk is taken for the mark of a list item.
          obtain ⟨isFirst, areOthers⟩ := List.forall_mem_cons.mp areBefore
          obtain rfl : c = '*' := eq_of_beq isFirst
          have behind := noGap (List.forall_mem_nil _) areOthers
          exact (congrArg _ behind).trans (noAsterisk areOthers)
  | @heading signs gap notEmpty areSigns areGap =>
      obtain ⟨sign, signs, rfl⟩ := List.exists_cons_of_ne_nil notEmpty
      obtain ⟨rfl, areOthers⟩ := List.forall_mem_cons.mp areSigns
      have noSign :
          (signs ++ (gap ++ (before ++ text))).dropWhile (· == '#') = gap ++ (before ++ text) := by
        refine Text.dropWhile_append_of_head (fun c member => beq_iff_eq.mpr (areOthers c member)) ?_
        intro c isFirst
        obtain inGap | isFirst := Text.head_append_cases areGap c isFirst
        · rw [Document.isGap, Bool.or_eq_true, beq_iff_eq, beq_iff_eq] at inGap
          obtain rfl | rfl := inGap <;> decide
        · obtain rfl | rfl := atAsterisk areBefore c isFirst <;> decide
      rw [List.cons_append, List.cons_append, List.append_assoc]
      exact (congrArg _ ((congrArg _ noSign).trans (noGap areGap areBefore))).trans
        (noAsterisk areBefore)
  | item isSign areGap =>
      have behind := noGap areGap areBefore
      obtain rfl | rfl := isSign
      · exact (congrArg _ behind).trans (noAsterisk areBefore)
      · exact (congrArg _ behind).trans (noAsterisk areBefore)

/-- A line defines the criterion that it tells. -/
theorem criterion?_eq_some_iff
    {line : Text}
    {criterion : Criterion}
    (oneLine : '\n' ∉ line) :
    criterion? line = some criterion ↔ Tells line criterion := by
  constructor
  · intro defines
    unfold criterion? at defines
    split at defines
    · cases defines
    next id rest found =>
      split at defines
      · cases defines
      next described isDescribed =>
        dsimp only at defines
        split at defines
        · cases defines
        next notEmpty =>
          cases defines
          obtain ⟨mark, isMark, isLine⟩ := exists_mark line
          obtain ⟨before, areBefore, isBefore⟩ :=
            Text.exists_append_dropWhile isAsterisk (withoutMark line)
          obtain ⟨behind, areBehind, isBehind⟩ := Text.exists_append_dropWhile isAsterisk rest
          obtain ⟨isIdentifier, identifier⟩ := Title.idAtStart?_eq_some found
          rw [isIdentifier, isBehind] at isBefore
          rw [isBefore] at isLine
          have notBehind : '\n' ∉ rest.dropWhile isAsterisk := by
            rw [isLine] at oneLine
            simp only [List.mem_append, not_or] at oneLine
            exact oneLine.2.2.2.2
          rw [isLine]
          exact .intro isMark areBefore identifier areBehind
            ((Title.lineAfter?_eq_some_iff (Or.inr notBehind)).mp isDescribed) notEmpty
  · rintro (@⟨mark, before, id, behind, rest, line, isMark, areBefore, identifier, areBehind,
      isLine, notEmpty⟩)
    simp only [List.mem_append, not_or] at oneLine
    have noDigit : ∀ c ∈ (behind ++ rest).head?, Text.isDigit c = false := by
      intro c isFirst
      obtain isAsterisk | isFirst := Text.head_append_cases areBehind c isFirst
      · exact eq_of_beq isAsterisk ▸ rfl
      · obtain rfl | rfl | rfl := separator_cases (isLine.separates_head c isFirst) <;> decide
    have noAsterisk : (behind ++ rest).dropWhile isAsterisk = rest :=
      Text.dropWhile_append_of_head areBehind fun c isFirst => by
        obtain rfl | rfl | rfl := separator_cases (isLine.separates_head c isFirst) <;> decide
    unfold criterion?
    rw [dropWhile_withoutMark isMark areBefore identifier,
      Title.idAtStart?_append identifier noDigit]
    dsimp only
    rw [noAsterisk, (Title.lineAfter?_eq_some_iff (Or.inr oneLine.2.2.2.2)).mpr isLine]
    exact if_neg notEmpty

/-! ### Places in a document -/

theorem IsMark.oneLine
    {mark : Text}
    (isMark : IsMark mark) :
    '\n' ∉ mark := by
  have notGap {gap : Text} (areGap : ∀ c ∈ gap, isGap c = true) : '\n' ∉ gap :=
    fun member => absurd (areGap _ member) (by decide)
  cases isMark with
  | none => exact List.not_mem_nil
  | heading notEmpty areSigns areGap =>
      rw [List.mem_append, not_or]
      exact ⟨fun member => absurd (areSigns _ member) (by decide), notGap areGap⟩
  | item isSign areGap =>
      rw [List.mem_cons, not_or]
      refine ⟨?_, notGap areGap⟩
      obtain rfl | rfl := isSign <;> decide

/-- A criterion is told on one line, so what stands behind the line makes no difference. -/
theorem tells_append_iff
    {line behind : Text}
    {criterion : Criterion}
    (oneLine : '\n' ∉ line)
    (atEnd : Text.AtLineEnd behind) :
    Tells (line ++ behind) criterion ↔ Tells line criterion := by
  have noEnd : isSeparator '\n' = false := by decide
  constructor
  · intro tells
    generalize same : line ++ behind = text at tells
    obtain @⟨mark, before, id, stars, rest, described, isMark, areBefore, identifier, areBehind,
      isLine, notEmpty⟩ := tells
    have noEnds : '\n' ∉ mark ++ (before ++ (id ++ stars)) := by
      simp only [List.mem_append, not_or]
      exact ⟨isMark.oneLine, fun member => absurd (areBefore _ member) (by decide),
        identifier.oneLine, fun member => absurd (areBehind _ member) (by decide)⟩
    have parts : line ++ behind = mark ++ (before ++ (id ++ stars)) ++ rest := by
      simp only [same, List.append_assoc]
    obtain ⟨more, rfl, rfl⟩ := atEnd.exists_of_append_eq noEnds parts
    rw [List.mem_append, not_or] at oneLine
    simp only [List.append_assoc]
    exact .intro isMark areBefore identifier areBehind
      ((Title.isLineAfter_append_iff noEnd oneLine.2 atEnd).mp isLine) notEmpty
  · rintro ⟨isMark, areBefore, identifier, areBehind, isLine, notEmpty⟩
    simp only [List.mem_append, not_or] at oneLine
    simp only [List.append_assoc]
    exact .intro isMark areBefore identifier areBehind
      ((Title.isLineAfter_append_iff noEnd oneLine.2.2.2.2 atEnd).mpr isLine) notEmpty

/-- What a document describes is what its lines define, each behind the lines before it. -/
theorem describes_iff
    {text before : Text}
    {criterion : Criterion} :
    Describes text before criterion ↔
      ∃ lines line after,
        text.splitOn '\n' = lines ++ line :: after ∧
          before = Text.ofLines lines ∧ criterion? line = some criterion := by
  constructor
  · rintro ⟨ends, rest, rfl, tells⟩
    obtain ⟨lines, rfl, whole⟩ := Text.endsLine_iff.mp ends
    obtain ⟨oneLine, behind, atEnd, parts⟩ := Title.exists_firstLine_append rest
    obtain ⟨after, areLines⟩ := Text.exists_splitOn_iff.mpr
      ⟨whole, oneLine, behind, atEnd, congrArg (Text.ofLines lines ++ ·) parts⟩
    rw [parts, tells_append_iff oneLine atEnd] at tells
    exact ⟨lines, _, after, areLines, rfl, (criterion?_eq_some_iff oneLine).mpr tells⟩
  · rintro ⟨lines, line, after, areLines, rfl, defines⟩
    obtain ⟨whole, oneLine, behind, atEnd, rfl⟩ := Text.exists_splitOn_iff.mp ⟨after, areLines⟩
    refine ⟨Text.endsLine_iff.mpr ⟨lines, rfl, whole⟩, line ++ behind, rfl, ?_⟩
    exact (tells_append_iff oneLine atEnd).mpr ((criterion?_eq_some_iff oneLine).mp defines)

end Document

end TestAudit
