import Mathlib.Order.Bounds.Basic
import TestAudit.Proofs.Source.CallSpan

namespace TestAudit.Language

/-!
# Counted parentheses of code

Parentheses can be paired off by counting: the one that closes several open ones is the
first place of code up to which the closing parentheses exceed the opening ones by their
number. Only code is counted, read from where the first character stands.
-/

/--
The characters of code among a number of characters of a text; `skip` characters are
the rest of a literal.
-/
def codeWithin (language : Language) : (count skip : Nat) → Text → Text
  | 0, _, _ => []
  | _ + 1, _, [] => []
  | count + 1, skip + 1, _ :: rest => codeWithin language count skip rest
  | count + 1, 0, c :: rest =>
      match language.literalLength? (c :: rest) with
      | some length => codeWithin language count (length - 1) rest
      | none => c :: codeWithin language count 0 rest

/-- The code from one offset up to another, when the text is read from the first. -/
def codeUpTo (language : Language) (text : Text) (first last : Nat) : Text :=
  language.codeWithin (last - first) 0 (text.drop first)

/--
An offset of code up to which, itself included, the closing parentheses exceed the
opening ones by a number.
-/
structure Exceeds (language : Language) (text : Text) (excess first offset : Nat) : Prop where
  code : language.CodeFrom text first offset
  counts :
    (language.codeUpTo text first (offset + 1)).count ')' =
      (language.codeUpTo text first (offset + 1)).count '(' + excess

variable {language : Language} {text : Text}

/-! ## Code token by token -/

theorem codeWithin_skip
    (language : Language)
    (count skip : Nat)
    (text : Text) :
    language.codeWithin count skip text =
      language.codeWithin (count - skip) 0 (text.drop skip) := by
  induction skip generalizing count text with
  | zero => rfl
  | succ skip inductionHypothesis =>
      cases count with
      | zero => simp [codeWithin]
      | succ count =>
          cases text with
          | nil =>
              rw [List.drop_nil]
              cases count + 1 - (skip + 1) <;> rfl
          | cons c rest =>
              rw [codeWithin, inductionHypothesis, Nat.add_sub_add_right, List.drop_succ_cons]

theorem codeUpTo_self
    (language : Language)
    (text : Text)
    (offset : Nat) :
    language.codeUpTo text offset offset = [] := by
  rw [codeUpTo, Nat.sub_self, codeWithin]

theorem codeUpTo_of_literal
    {first length last : Nat}
    (literal : language.literalLength? (text.drop first) = some length)
    (behind : first + length ≤ last) :
    language.codeUpTo text first last = language.codeUpTo text (first + length) last := by
  have positive := (literalLength?_bounds literal).1
  obtain ⟨count, counted⟩ : ∃ count, last - first = count + 1 := ⟨last - first - 1, by omega⟩
  cases shape : text.drop first with
  | nil => simp [shape] at literal
  | cons c rest =>
      obtain ⟨_, _, rfl⟩ := Text.drop_eq_cons shape
      rw [shape] at literal
      rw [codeUpTo, shape, counted, codeWithin, literal]
      simp only
      rw [codeWithin_skip, List.drop_drop, codeUpTo,
        show first + 1 + (length - 1) = first + length by omega,
        show count - (length - 1) = last - (first + length) by omega]

theorem codeUpTo_of_plain
    {first last : Nat}
    {c : Char}
    (plain : language.literalLength? (text.drop first) = none)
    (here : text[first]? = some c)
    (before : first < last) :
    language.codeUpTo text first last = c :: language.codeUpTo text (first + 1) last := by
  obtain ⟨count, counted⟩ : ∃ count, last - first = count + 1 := ⟨last - first - 1, by omega⟩
  obtain ⟨within, rfl⟩ := List.getElem?_eq_some_iff.mp here
  have shape := List.drop_eq_getElem_cons within
  rw [shape] at plain
  rw [codeUpTo, shape, counted, codeWithin, plain, codeUpTo,
    show last - (first + 1) = count by omega]

/-! ## Excess of closing parentheses -/

namespace Exceeds

variable {excess first offset : Nat}

theorem iff_of_literal
    {length : Nat}
    (literal : language.literalLength? (text.drop first) = some length) :
    language.Exceeds text excess first offset ↔
      language.Exceeds text excess (first + length) offset := by
  have sameCount
      (code : language.CodeFrom text (first + length) offset) :
      language.codeUpTo text first (offset + 1) =
        language.codeUpTo text (first + length) (offset + 1) :=
    codeUpTo_of_literal literal (Nat.le_succ_of_le code.le)
  constructor
  · rintro ⟨code, counts⟩
    have behind := (CodeFrom.iff_of_literal literal).mp code
    exact ⟨behind, sameCount behind ▸ counts⟩
  · rintro ⟨behind, counts⟩
    exact ⟨(CodeFrom.iff_of_literal literal).mpr behind, sameCount behind ▸ counts⟩

/-- A character of code counts by itself, and before those behind it. -/
theorem iff_of_plain
    {c : Char}
    (plain : language.literalLength? (text.drop first) = none)
    (here : text[first]? = some c) :
    language.Exceeds text excess first offset ↔
      (offset = first ∧ [c].count ')' = [c].count '(' + excess) ∨
        (language.CodeFrom text (first + 1) offset ∧
          (language.codeUpTo text (first + 1) (offset + 1)).count ')' + [c].count ')' =
            (language.codeUpTo text (first + 1) (offset + 1)).count '(' + [c].count '(' +
              excess) := by
  have within := (List.getElem?_eq_some_iff.mp here).1
  have single : language.codeUpTo text first (first + 1) = [c] := by
    rw [codeUpTo_of_plain plain here (Nat.lt_succ_self first), codeUpTo_self]
  have counted
      (mark : Char)
      (code : language.CodeFrom text (first + 1) offset) :
      (language.codeUpTo text first (offset + 1)).count mark =
        (language.codeUpTo text (first + 1) (offset + 1)).count mark + [c].count mark := by
    have after := code.le
    rw [codeUpTo_of_plain plain here (by omega), ← List.singleton_append, List.count_append,
      Nat.add_comm]
  constructor
  · rintro ⟨code, counts⟩
    rcases (CodeFrom.iff_of_plain within plain).mp code with rfl | behind
    · rw [single] at counts
      exact Or.inl ⟨rfl, counts⟩
    · rw [counted _ behind, counted _ behind] at counts
      exact Or.inr ⟨behind, counts⟩
  · rintro (⟨rfl, counts⟩ | ⟨behind, counts⟩)
    · refine ⟨⟨.refl, within, plain⟩, ?_⟩
      rw [single]
      exact counts
    · refine ⟨(CodeFrom.iff_of_plain within plain).mpr (Or.inr behind), ?_⟩
      rw [counted _ behind, counted _ behind]
      exact counts

theorem iff_of_opened
    (plain : language.literalLength? (text.drop first) = none)
    (here : text[first]? = some '(') :
    language.Exceeds text excess first offset ↔
      language.Exceeds text (excess + 1) (first + 1) offset := by
  rw [iff_of_plain plain here]
  simp only [List.count_singleton, Char.reduceBEq, Bool.false_eq_true, ↓reduceIte]
  constructor
  · rintro (⟨_, counts⟩ | ⟨code, counts⟩)
    · omega
    · exact ⟨code, by omega⟩
  · rintro ⟨code, counts⟩
    exact Or.inr ⟨code, by omega⟩

theorem iff_of_closed
    (plain : language.literalLength? (text.drop first) = none)
    (here : text[first]? = some ')') :
    language.Exceeds text (excess + 1) first offset ↔
      (offset = first ∧ excess = 0) ∨ language.Exceeds text excess (first + 1) offset := by
  rw [iff_of_plain plain here]
  simp only [List.count_singleton, Char.reduceBEq, Bool.false_eq_true, ↓reduceIte]
  constructor
  · rintro (⟨same, counts⟩ | ⟨code, counts⟩)
    · exact Or.inl ⟨same, by omega⟩
    · exact Or.inr ⟨code, by omega⟩
  · rintro (⟨same, rfl⟩ | ⟨code, counts⟩)
    · exact Or.inl ⟨same, rfl⟩
    · exact Or.inr ⟨code, by omega⟩

theorem iff_of_other
    {c : Char}
    (plain : language.literalLength? (text.drop first) = none)
    (here : text[first]? = some c)
    (notOpening : c ≠ '(')
    (notClosing : c ≠ ')') :
    language.Exceeds text (excess + 1) first offset ↔
      language.Exceeds text (excess + 1) (first + 1) offset := by
  rw [iff_of_plain plain here]
  simp only [List.count_singleton, beq_iff_eq, notOpening, notClosing, ↓reduceIte]
  constructor
  · rintro (⟨_, counts⟩ | ⟨code, counts⟩)
    · omega
    · exact ⟨code, by omega⟩
  · rintro ⟨code, counts⟩
    exact Or.inr ⟨code, by omega⟩

end Exceeds

/-! ## The closing parenthesis by counting -/

/-- A parenthesis closes where the closing ones first exceed the others. -/
theorem Closes.isLeast
    {depth first close : Nat}
    (closes : language.Closes text depth first close)
    (isOpen : 0 < depth) :
    IsLeast {offset | language.Exceeds text depth first offset} close := by
  induction closes with
  | here plain isClosing =>
      refine ⟨(Exceeds.iff_of_closed plain isClosing).mpr (Or.inl ⟨rfl, rfl⟩), ?_⟩
      intro other exceeds
      exact exceeds.code.le
  | literal found _ inductionHypothesis =>
      simpa only [Exceeds.iff_of_literal found] using inductionHypothesis isOpen
  | opened plain isOpening _ inductionHypothesis =>
      simpa only [Exceeds.iff_of_opened plain isOpening] using
        inductionHypothesis (Nat.succ_pos _)
  | closed plain isClosing _ inductionHypothesis =>
      simpa only [Exceeds.iff_of_closed plain isClosing, Nat.add_eq_zero_iff, Nat.one_ne_zero,
        and_false, false_or] using inductionHypothesis (Nat.succ_pos _)
  | other plain isOther notOpening notClosing _ inductionHypothesis =>
      obtain ⟨fewer, rfl⟩ := Nat.exists_eq_succ_of_ne_zero isOpen.ne'
      simpa only [Nat.succ_eq_add_one, Exceeds.iff_of_other plain isOther notOpening notClosing]
        using inductionHypothesis isOpen

/-- Where the closing parentheses exceed the others, the last open one was closed there or before. -/
theorem Exceeds.exists_closes
    {depth first offset : Nat}
    (exceeds : language.Exceeds text (depth + 1) first offset) :
    ∃ close, language.Closes text (depth + 1) first close ∧ close ≤ offset := by
  -- A literal takes reading several characters further, hence the strong induction.
  induction remaining : offset + 1 - first using Nat.strongRecOn generalizing depth first with
  | ind remaining inductionHypothesis =>
      subst remaining
      have after := exceeds.code.le
      cases literal : language.literalLength? (text.drop first) with
      | some length =>
          have positive := (literalLength?_bounds literal).1
          obtain ⟨close, closes, before⟩ :=
            inductionHypothesis _ (by omega) ((Exceeds.iff_of_literal literal).mp exceeds) rfl
          exact ⟨close, .literal literal closes, before⟩
      | none =>
          have within : first < text.length := Nat.lt_of_le_of_lt after exceeds.code.within
          have here := List.getElem?_eq_getElem within
          by_cases isOpening : text[first] = '('
          · rw [isOpening] at here
            obtain ⟨close, closes, before⟩ :=
              inductionHypothesis _ (by omega)
                ((Exceeds.iff_of_opened literal here).mp exceeds) rfl
            exact ⟨close, .opened literal here closes, before⟩
          · by_cases isClosing : text[first] = ')'
            · rw [isClosing] at here
              cases depth with
              | zero => exact ⟨first, .here literal here, after⟩
              | succ depth =>
                  rcases (Exceeds.iff_of_closed literal here).mp exceeds with
                    ⟨_, none⟩ | further
                  · cases none
                  · obtain ⟨close, closes, before⟩ :=
                      inductionHypothesis _ (by omega) further rfl
                    exact ⟨close, .closed literal here closes, before⟩
            · obtain ⟨close, closes, before⟩ :=
                inductionHypothesis _ (by omega)
                  ((Exceeds.iff_of_other literal here isOpening isClosing).mp exceeds) rfl
              exact ⟨close, .other literal here isOpening isClosing closes, before⟩

/-! ## Spans by counting -/

/-- A span that stops where the closing parentheses exceed the others, or at the window. -/
structure StopsByCount
    (language : Language) (text : Text) (window : Nat) (span : CallSpan) : Prop where
  opened : text[span.start - 1]? = some '('
  bounds : span.callStart < span.start ∧ span.start ≤ span.stop ∧ span.stop ≤ text.length
  closed :
    span.truncated = false →
    IsLeast {offset | language.Exceeds text 1 span.start offset} span.stop ∧
      span.stop < min text.length (span.start + window)
  cut :
    span.truncated = true →
    span.stop = min text.length (span.start + window) ∧
      ∀ offset, language.Exceeds text 1 span.start offset → span.stop ≤ offset

/-- A span that reaches as far as it should stops by count. -/
theorem ReachesFar.stopsByCount
    {window : Nat}
    {span : CallSpan}
    (opens : language.OpensCall text span.callStart span.start)
    (reaches : language.ReachesFar text window span) :
    language.StopsByCount text window span where
  opened := opens.getElem?_pred_start
  bounds := ⟨opens.bounds.1, reaches.bounds opens.bounds.2⟩
  closed := by
    intro whole
    obtain ⟨closes, near⟩ := reaches.closes whole
    exact ⟨closes.isLeast Nat.one_pos, lt_min closes.codeFrom.within near⟩
  cut := by
    intro cutOff
    cases reaches with
    | closed => cases cutOff
    | cut far =>
        refine ⟨rfl, ?_⟩
        intro offset exceeds
        obtain ⟨close, closes, before⟩ := exceeds.exists_closes
        exact Nat.le_trans (Nat.min_le_right _ _) (Nat.le_trans (far close closes) before)

end TestAudit.Language
