import TestAudit.Proofs.Source.Token
import TestAudit.Proofs.Text.Nesting
import TestAudit.Source.CallSpan

namespace TestAudit.Language

/-!
# Closing parentheses

A parenthesis closes what was opened before it when reading comes to it, literals
being passed over as a whole, with one parenthesis open. The search for the
closing parenthesis of a call finds exactly that one, as long as it stands within
the number of characters that are looked at.
-/

/-- Reading from an offset on with `depth` parentheses open, the last of them is closed at another. -/
inductive Closes (language : Language) (text : Text) : (depth first close : Nat) → Prop where
  /-- The closing parenthesis itself. -/
  | here {offset : Nat} :
      language.literalLength? (text.drop offset) = none →
      text[offset]? = some ')' →
      Closes language text 1 offset offset
  /-- A literal is passed over as a whole. -/
  | literal {depth offset length close : Nat} :
      language.literalLength? (text.drop offset) = some length →
      Closes language text depth (offset + length) close →
      Closes language text depth offset close
  /-- One more parenthesis is opened. -/
  | opened {depth offset close : Nat} :
      language.literalLength? (text.drop offset) = none →
      text[offset]? = some '(' →
      Closes language text (depth + 1) (offset + 1) close →
      Closes language text depth offset close
  /-- A parenthesis is closed that is not the last one. -/
  | closed {depth offset close : Nat} :
      language.literalLength? (text.drop offset) = none →
      text[offset]? = some ')' →
      Closes language text (depth + 1) (offset + 1) close →
      Closes language text (depth + 2) offset close
  /-- Any other character of code changes nothing. -/
  | other {depth offset close : Nat} {c : Char} :
      language.literalLength? (text.drop offset) = none →
      text[offset]? = some c →
      c ≠ '(' →
      c ≠ ')' →
      Closes language text depth (offset + 1) close →
      Closes language text depth offset close

variable {language : Language} {text : Text}

namespace Closes

/-- The closing parenthesis is code that reading comes to. -/
theorem codeFrom
    {depth first close : Nat}
    (closes : language.Closes text depth first close) :
    language.CodeFrom text first close := by
  induction closes with
  | here plain isClosing =>
      exact ⟨.refl, (List.getElem?_eq_some_iff.mp isClosing).1, plain⟩
  | literal found _ inductionHypothesis =>
      exact (CodeFrom.iff_of_literal found).mpr inductionHypothesis
  | opened plain isOpening _ inductionHypothesis =>
      have within := (List.getElem?_eq_some_iff.mp isOpening).1
      exact (CodeFrom.iff_of_plain within plain).mpr (Or.inr inductionHypothesis)
  | closed plain isClosing _ inductionHypothesis =>
      have within := (List.getElem?_eq_some_iff.mp isClosing).1
      exact (CodeFrom.iff_of_plain within plain).mpr (Or.inr inductionHypothesis)
  | other plain isOther _ _ _ inductionHypothesis =>
      have within := (List.getElem?_eq_some_iff.mp isOther).1
      exact (CodeFrom.iff_of_plain within plain).mpr (Or.inr inductionHypothesis)

theorem getElem?_close
    {depth first close : Nat}
    (closes : language.Closes text depth first close) :
    text[close]? = some ')' := by
  induction closes with
  | here _ isClosing => exact isClosing
  | literal _ _ inductionHypothesis => exact inductionHypothesis
  | opened _ _ _ inductionHypothesis => exact inductionHypothesis
  | closed _ _ _ inductionHypothesis => exact inductionHypothesis
  | other _ _ _ _ _ inductionHypothesis => exact inductionHypothesis

/-! What stands where reading begins says where it goes on. -/

section Steps

variable {depth offset close : Nat}

theorem iff_of_literal
    {length : Nat}
    (literal : language.literalLength? (text.drop offset) = some length) :
    language.Closes text depth offset close ↔
      language.Closes text depth (offset + length) close := by
  refine ⟨?_, .literal literal⟩
  intro closes
  cases closes with
  | here plain => cases literal.symm.trans plain
  | literal same further =>
      cases literal.symm.trans same
      exact further
  | opened plain => cases literal.symm.trans plain
  | closed plain => cases literal.symm.trans plain
  | other plain => cases literal.symm.trans plain

variable (plain : language.literalLength? (text.drop offset) = none)

include plain

theorem iff_of_opened
    (isOpening : text[offset]? = some '(') :
    language.Closes text depth offset close ↔
      language.Closes text (depth + 1) (offset + 1) close := by
  refine ⟨?_, .opened plain isOpening⟩
  intro closes
  cases closes with
  | here _ isClosing => cases isOpening.symm.trans isClosing
  | literal literal => cases plain.symm.trans literal
  | opened _ _ further => exact further
  | closed _ isClosing => cases isOpening.symm.trans isClosing
  | other _ isOther notOpening =>
      exact (notOpening (Option.some.inj (isOther.symm.trans isOpening))).elim

theorem iff_of_closed
    (isClosing : text[offset]? = some ')') :
    language.Closes text (depth + 2) offset close ↔
      language.Closes text (depth + 1) (offset + 1) close := by
  refine ⟨?_, .closed plain isClosing⟩
  intro closes
  cases closes with
  | literal literal => cases plain.symm.trans literal
  | opened _ isOpening => cases isOpening.symm.trans isClosing
  | closed _ _ further => exact further
  | other _ isOther _ notClosing =>
      exact (notClosing (Option.some.inj (isOther.symm.trans isClosing))).elim

theorem iff_of_other
    {c : Char}
    (isOther : text[offset]? = some c)
    (notOpening : c ≠ '(')
    (notClosing : c ≠ ')') :
    language.Closes text depth offset close ↔
      language.Closes text depth (offset + 1) close := by
  refine ⟨?_, .other plain isOther notOpening notClosing⟩
  intro closes
  cases closes with
  | here _ isClosing =>
      exact (notClosing (Option.some.inj (isOther.symm.trans isClosing))).elim
  | literal literal => cases plain.symm.trans literal
  | opened _ isOpening =>
      exact (notOpening (Option.some.inj (isOther.symm.trans isOpening))).elim
  | closed _ isClosing =>
      exact (notClosing (Option.some.inj (isOther.symm.trans isClosing))).elim
  | other _ _ _ _ further => exact further

end Steps

end Closes

/-! ## The search for the closing parenthesis -/

@[simp] theorem closingDistance?_nil
    (language : Language)
    (window depth skip : Nat) :
    language.closingDistance? window depth skip [] = none := by
  cases window <;> cases skip <;> rfl

@[simp] theorem closingDistance?_zero
    (language : Language)
    (depth skip : Nat)
    (text : Text) :
    language.closingDistance? 0 depth skip text = none := by
  cases skip <;> rfl

/-- Passing over the rest of a literal uses up the characters that are looked at. -/
theorem closingDistance?_skip
    (language : Language)
    (window depth skip : Nat)
    (text : Text) :
    language.closingDistance? window depth skip text =
      (language.closingDistance? (window - skip) depth 0 (text.drop skip)).map (· + skip) := by
  induction skip generalizing window text with
  | zero => simp
  | succ skip inductionHypothesis =>
      cases window with
      | zero => simp
      | succ window =>
          cases text with
          | nil => simp
          | cons c rest =>
              rw [closingDistance?, inductionHypothesis]
              simp [Option.map_map, Function.comp_def, Nat.add_assoc]

theorem closingDistance?_of_literal
    {window depth offset length : Nat}
    (literal : language.literalLength? (text.drop offset) = some length) :
    language.closingDistance? window depth 0 (text.drop offset) =
      (language.closingDistance? (window - length) depth 0
        (text.drop (offset + length))).map (· + length) := by
  have positive : 0 < length := (literalLength?_bounds literal).1
  cases window with
  | zero => simp
  | succ window =>
      cases shape : text.drop offset with
      | nil => simp [shape] at literal
      | cons c rest =>
          rw [shape] at literal
          obtain ⟨_, _, after⟩ := Text.drop_eq_cons shape
          have remaining : rest.drop (length - 1) = text.drop (offset + length) := by
            rw [← after, List.drop_drop]
            congr 1
            omega
          rw [closingDistance?, literal]
          simp only
          rw [closingDistance?_skip, remaining, Option.map_map,
            show window - (length - 1) = window + 1 - length by omega]
          congr 1
          funext distance
          simp only [Function.comp_apply]
          omega

/-- What a character of code does to the search, by the parentheses that are open. -/
theorem closingDistance?_of_plain
    {window depth offset : Nat}
    {c : Char}
    (plain : language.literalLength? (text.drop offset) = none)
    (here : text[offset]? = some c) :
    language.closingDistance? (window + 1) depth 0 (text.drop offset) =
      if c = ')' ∧ depth ≤ 1 then
        some 0
      else
        let remaining :=
          if c = '(' then depth + 1 else if c = ')' then depth - 1 else depth
        (language.closingDistance? window remaining 0
          (text.drop (offset + 1))).map (· + 1) := by
  have within := (List.getElem?_eq_some_iff.mp here).1
  have shape : text.drop offset = c :: text.drop (offset + 1) := by
    rw [List.drop_eq_getElem_cons within]
    congr 1
    exact (List.getElem?_eq_some_iff.mp here).2
  rw [shape] at plain ⊢
  rw [closingDistance?, plain]
  by_cases opening : c = '('
  · subst opening
    simp
  · by_cases closing : c = ')'
    · subst closing
      by_cases last : depth ≤ 1 <;> simp [last]
    · simp [opening, closing]

/-- What the search finds is the closing parenthesis. -/
theorem closes_of_closingDistance?
    {window depth offset distance : Nat}
    (found :
      language.closingDistance? window (depth + 1) 0 (text.drop offset) = some distance) :
    language.Closes text (depth + 1) offset (offset + distance) ∧ distance < window := by
  induction window using Nat.strongRecOn generalizing depth offset distance with
  | ind window inductionHypothesis =>
      cases literal : language.literalLength? (text.drop offset) with
      | some length =>
          have positive : 0 < length := (literalLength?_bounds literal).1
          rw [closingDistance?_of_literal literal] at found
          obtain ⟨behind, foundBehind, rfl⟩ := Option.map_eq_some_iff.mp found
          have shorter : window - length < window := by
            apply Nat.lt_of_not_le
            intro notShorter
            have empty : window = 0 := by omega
            simp [empty] at foundBehind
          obtain ⟨closes, bound⟩ := inductionHypothesis _ shorter foundBehind
          refine ⟨.literal literal ?_, by omega⟩
          rw [show offset + (behind + length) = offset + length + behind by omega]
          exact closes
      | none =>
          cases window with
          | zero => simp at found
          | succ window =>
              cases here : text[offset]? with
              | none =>
                  have beyond : text.length ≤ offset :=
                    List.getElem?_eq_none_iff.mp here
                  simp [List.drop_eq_nil_of_le beyond] at found
              | some c =>
                  rw [closingDistance?_of_plain literal here] at found
                  split at found
                  · next isLast =>
                      obtain ⟨rfl, last⟩ := isLast
                      have same : depth = 0 := by omega
                      cases found
                      subst same
                      exact ⟨.here literal here, Nat.succ_pos window⟩
                  · next notLast =>
                      obtain ⟨behind, foundBehind, rfl⟩ := Option.map_eq_some_iff.mp found
                      rw [show offset + (behind + 1) = offset + 1 + behind by omega]
                      by_cases opening : c = '('
                      · subst opening
                        simp only [↓reduceIte] at foundBehind
                        obtain ⟨closes, bound⟩ :=
                          inductionHypothesis _ (Nat.lt_succ_self _) foundBehind
                        exact ⟨.opened literal here closes, by omega⟩
                      · by_cases closing : c = ')'
                        · subst closing
                          have deeper : depth ≠ 0 := by
                            rintro rfl
                            exact notLast ⟨rfl, Nat.le_refl 1⟩
                          obtain ⟨remaining, rfl⟩ :=
                            Nat.exists_eq_succ_of_ne_zero deeper
                          obtain ⟨closes, bound⟩ :=
                            inductionHypothesis _ (Nat.lt_succ_self _) foundBehind
                          exact ⟨.closed literal here closes, by omega⟩
                        · simp only [opening, closing, ↓reduceIte] at foundBehind
                          obtain ⟨closes, bound⟩ :=
                            inductionHypothesis _ (Nat.lt_succ_self _) foundBehind
                          exact ⟨.other literal here opening closing closes, by omega⟩

/-- The search finds the closing parenthesis when it looks that far. -/
theorem closingDistance?_of_closes
    {window depth offset close : Nat}
    (closes : language.Closes text depth offset close)
    (near : close < offset + window) :
    language.closingDistance? window depth 0 (text.drop offset) = some (close - offset) := by
  induction closes generalizing window with
  | @here offset plain isClosing =>
      obtain ⟨window, rfl⟩ : ∃ fewer, window = fewer + 1 := ⟨window - 1, by omega⟩
      rw [closingDistance?_of_plain plain isClosing]
      simp
  | @literal depth offset length close found closes inductionHypothesis =>
      have after := closes.codeFrom.le
      rw [closingDistance?_of_literal found, inductionHypothesis (by omega)]
      simp only [Option.map_some, Option.some.injEq]
      omega
  | @opened depth offset close plain isOpening closes inductionHypothesis =>
      have after := closes.codeFrom.le
      obtain ⟨window, rfl⟩ : ∃ fewer, window = fewer + 1 := ⟨window - 1, by omega⟩
      rw [closingDistance?_of_plain plain isOpening]
      simp only [Char.reduceEq, false_and, ↓reduceIte]
      rw [inductionHypothesis (by omega)]
      simp only [Option.map_some, Option.some.injEq]
      omega
  | @closed depth offset close plain isClosing closes inductionHypothesis =>
      have after := closes.codeFrom.le
      obtain ⟨window, rfl⟩ : ∃ fewer, window = fewer + 1 := ⟨window - 1, by omega⟩
      rw [closingDistance?_of_plain plain isClosing]
      have notLast : ¬ depth + 2 ≤ 1 := by omega
      simp only [notLast, and_false, Char.reduceEq, ↓reduceIte]
      rw [show depth + 2 - 1 = depth + 1 by omega, inductionHypothesis (by omega)]
      simp only [Option.map_some, Option.some.injEq]
      omega
  | @other depth offset close c plain isOther notOpening notClosing closes inductionHypothesis =>
      have after := closes.codeFrom.le
      obtain ⟨window, rfl⟩ : ∃ fewer, window = fewer + 1 := ⟨window - 1, by omega⟩
      rw [closingDistance?_of_plain plain isOther]
      simp only [notOpening, notClosing, false_and, ↓reduceIte]
      rw [inductionHypothesis (by omega)]
      simp only [Option.map_some, Option.some.injEq]
      omega

/-- The parenthesis that closes is determined by where reading begins. -/
theorem Closes.unique
    {depth offset left right : Nat}
    (first : language.Closes text depth offset left)
    (second : language.Closes text depth offset right) :
    left = right := by
  have firstAfter := first.codeFrom.le
  have secondAfter := second.codeFrom.le
  have toLeft :
      language.closingDistance? (left + right + 1) depth 0 (text.drop offset) =
        some (left - offset) :=
    closingDistance?_of_closes first (by omega)
  have toRight :
      language.closingDistance? (left + right + 1) depth 0 (text.drop offset) =
        some (right - offset) :=
    closingDistance?_of_closes second (by omega)
  have same := Option.some.inj (toLeft.symm.trans toRight)
  omega

/-! ## Nested parentheses -/

namespace Closes

/-- Of several open parentheses, the inner ones are closed first. -/
theorem exists_inner
    {depth first close : Nat}
    (closes : language.Closes text depth first close)
    {inner outer : Nat}
    (parts : depth = inner + outer)
    (innerOpen : 0 < inner)
    (outerOpen : 0 < outer) :
    ∃ middle, language.Closes text inner first middle ∧ middle < close := by
  induction closes generalizing inner with
  | here => omega
  | literal found _ inductionHypothesis =>
      obtain ⟨middle, toMiddle, before⟩ := inductionHypothesis parts innerOpen
      exact ⟨middle, .literal found toMiddle, before⟩
  | opened plain isOpening _ inductionHypothesis =>
      obtain ⟨middle, toMiddle, before⟩ :=
        @inductionHypothesis (inner + 1) (by omega) (Nat.succ_pos inner)
      exact ⟨middle, .opened plain isOpening toMiddle, before⟩
  | closed plain isClosing closes inductionHypothesis =>
      obtain ⟨fewer, rfl⟩ := Nat.exists_eq_add_of_le innerOpen
      rcases Nat.eq_zero_or_pos fewer with rfl | further
      · exact ⟨_, .here plain isClosing, closes.codeFrom.le⟩
      · obtain ⟨remaining, rfl⟩ := Nat.exists_eq_add_of_le further
        obtain ⟨middle, toMiddle, before⟩ :=
          @inductionHypothesis (remaining + 1) (by omega) (Nat.succ_pos remaining)
        rw [show 0 + 1 + (0 + 1 + remaining) = remaining + 2 by omega]
        exact ⟨middle, .closed plain isClosing toMiddle, before⟩
  | other plain isOther notOpening notClosing _ inductionHypothesis =>
      obtain ⟨middle, toMiddle, before⟩ := inductionHypothesis parts innerOpen
      exact ⟨middle, .other plain isOther notOpening notClosing toMiddle, before⟩

/-- A parenthesis that is opened in code is closed before those around it. -/
theorem exists_nested
    {depth first close opening : Nat}
    (closes : language.Closes text depth first close)
    (isOpen : 0 < depth)
    (code : language.CodeFrom text first opening)
    (before : opening < close)
    (opens : text[opening]? = some '(') :
    ∃ nested, language.Closes text 1 (opening + 1) nested ∧ nested < close := by
  induction closes with
  | here =>
      have after := code.le
      omega
  | literal found _ inductionHypothesis =>
      exact inductionHypothesis isOpen ((CodeFrom.iff_of_literal found).mp code) before
  | opened plain isOpening closes inductionHypothesis =>
      have within := (List.getElem?_eq_some_iff.mp isOpening).1
      rcases (CodeFrom.iff_of_plain within plain).mp code with rfl | further
      · exact closes.exists_inner (Nat.add_comm _ _) Nat.one_pos isOpen
      · exact inductionHypothesis (Nat.succ_pos _) further before
  | closed plain isClosing _ inductionHypothesis =>
      have within := (List.getElem?_eq_some_iff.mp isClosing).1
      rcases (CodeFrom.iff_of_plain within plain).mp code with rfl | further
      · cases isClosing.symm.trans opens
      · exact inductionHypothesis (Nat.succ_pos _) further before
  | other plain isOther notOpening _ _ inductionHypothesis =>
      have within := (List.getElem?_eq_some_iff.mp isOther).1
      rcases (CodeFrom.iff_of_plain within plain).mp code with rfl | further
      · exact (notOpening (Option.some.inj (isOther.symm.trans opens))).elim
      · exact inductionHypothesis isOpen further before

end Closes

/-! ## Counted parentheses -/

/-- All parentheses from one offset up to another are code of the text that is read from the first. -/
def ParenthesesAreCode (language : Language) (text : Text) (first last : Nat) : Prop :=
  ∀ offset,
    first ≤ offset →
    offset ≤ last →
    text[offset]? = some '(' ∨ text[offset]? = some ')' →
    language.CodeFrom text first offset

namespace ParenthesesAreCode

variable {first last : Nat}

theorem of_plain
    (areCode : language.ParenthesesAreCode text first last)
    (within : first < text.length)
    (plain : language.literalLength? (text.drop first) = none) :
    language.ParenthesesAreCode text (first + 1) last := by
  intro offset after before bracket
  have code := areCode offset (by omega) before bracket
  rcases (CodeFrom.iff_of_plain within plain).mp code with rfl | further
  · omega
  · exact further

theorem of_literal
    {length : Nat}
    (areCode : language.ParenthesesAreCode text first last)
    (literal : language.literalLength? (text.drop first) = some length) :
    language.ParenthesesAreCode text (first + length) last := by
  intro offset after before bracket
  have code := areCode offset (by omega) before bracket
  exact (CodeFrom.iff_of_literal literal).mp code

/-- A literal at the beginning of the reading holds no parenthesis. -/
theorem ne_of_literal
    {length offset : Nat}
    {c : Char}
    (areCode : language.ParenthesesAreCode text first last)
    (literal : language.literalLength? (text.drop first) = some length)
    (after : first ≤ offset)
    (inLiteral : offset < first + length)
    (before : offset ≤ last)
    (here : text[offset]? = some c) :
    c ≠ '(' ∧ c ≠ ')' := by
  have notCode : ¬ language.CodeFrom text first offset := by
    intro code
    have behind := ((CodeFrom.iff_of_literal literal).mp code).le
    omega
  constructor
  · rintro rfl
    exact notCode (areCode offset after before (Or.inl here))
  · rintro rfl
    exact notCode (areCode offset after before (Or.inr here))

end ParenthesesAreCode

/-- Where every parenthesis is code, parentheses close as they are counted. -/
theorem closes_of_leaves
    {depth first : Nat}
    {inside rest : Text}
    (shape : text.drop first = inside ++ ')' :: rest)
    (leaves : Text.Leaves '(' ')' depth inside 0)
    (areCode : language.ParenthesesAreCode text first (first + inside.length)) :
    language.Closes text (depth + 1) first (first + inside.length) := by
  -- A literal takes several characters of `inside` at once, hence the strong induction.
  induction size : inside.length using Nat.strongRecOn
    generalizing depth first inside with
  | ind size inductionHypothesis =>
      subst size
      have here
          (index : Nat) :
          text[first + index]? = (inside ++ ')' :: rest)[index]? := by
        rw [← shape, List.getElem?_drop]
      have last : text[first + inside.length]? = some ')' := by
        rw [here, List.getElem?_append_right (Nat.le_refl _), Nat.sub_self]
        rfl
      cases literal : language.literalLength? (text.drop first) with
      | some length =>
          have positive : 0 < length := (literalLength?_bounds literal).1
          have within : length ≤ inside.length := by
            apply Nat.le_of_not_lt
            intro beyond
            exact (areCode.ne_of_literal literal (Nat.le_add_right _ _) (by omega)
              (Nat.le_refl _) last).2 rfl
          have remaining : first + length + (inside.drop length).length = first + inside.length := by
            rw [List.length_drop]
            omega
          have noBrackets : ∀ c ∈ inside.take length, c ≠ '(' ∧ c ≠ ')' := by
            intro c member
            obtain ⟨index, inTake, found⟩ := List.mem_iff_getElem.mp member
            rw [List.length_take] at inTake
            refine areCode.ne_of_literal literal (Nat.le_add_right first index) (by omega)
              (by omega) ?_
            rw [here, List.getElem?_append_left (by omega), List.getElem?_eq_getElem (by omega),
              ← found, List.getElem_take]
          have restLeaves : Text.Leaves '(' ')' depth (inside.drop length) 0 := by
            rw [← List.take_append_drop length inside] at leaves
            exact leaves.of_append noBrackets
          have restShape : text.drop (first + length) = inside.drop length ++ ')' :: rest := by
            rw [← List.drop_drop, shape, List.drop_append_of_le_length within]
          have closes :=
            inductionHypothesis _ (by omega) restShape restLeaves
              (by rw [remaining]; exact areCode.of_literal literal) rfl
          rw [remaining] at closes
          exact .literal literal closes
      | none =>
          cases inside with
          | nil =>
              cases leaves
              exact .here literal last
          | cons c inside =>
              have head : text[first]? = some c := here 0
              have within : first < text.length := (List.getElem?_eq_some_iff.mp head).1
              have remaining : first + 1 + inside.length = first + (c :: inside).length := by
                rw [List.length_cons]
                omega
              have closes
                  {deeper : Nat}
                  (restLeaves : Text.Leaves '(' ')' deeper inside 0) :
                  language.Closes text (deeper + 1) (first + 1)
                    (first + (c :: inside).length) := by
                rw [← remaining]
                refine inductionHypothesis _ (by simp) (Text.drop_eq_cons shape).2.2 restLeaves
                  ?_ rfl
                rw [remaining]
                exact areCode.of_plain within literal
              cases leaves with
              | opened restLeaves => exact .opened literal head (closes restLeaves)
              | closed restLeaves => exact .closed literal head (closes restLeaves)
              | other notOpener notCloser restLeaves =>
                  exact .other literal head notOpener notCloser (closes restLeaves)

end TestAudit.Language
