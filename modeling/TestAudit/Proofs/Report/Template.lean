import TestAudit.Proofs.Text.Mark
import TestAudit.Proofs.Text.Segment
import TestAudit.Report.Placeholder

namespace TestAudit

/-!
# Filling a template

The placeholders in a template never overlap: no placeholder begins inside another one,
however the text goes on. So a template is made of characters and placeholders in one way,
and filling it replaces each placeholder where it stands. The values that are inserted have
no influence on what is replaced.
-/

namespace Placeholder

variable {first second placeholder : Placeholder} {text template : Text}

/-! ## Tokens -/

theorem mem_all
    (placeholder : Placeholder) :
    placeholder ∈ all := by
  cases placeholder <;> decide

theorem token_ne_nil
    (placeholder : Placeholder) :
    placeholder.token ≠ [] := by
  cases placeholder <;> decide

theorem eq_of_token_begins
    (begins : first.token <+: second.token) :
    first = second := by
  have table : ∀ first ∈ all, ∀ second ∈ all,
      first.token.isPrefixOf second.token = true → first = second := by
    decide +kernel
  exact table first first.mem_all second second.mem_all (List.isPrefixOf_iff_prefix.mpr begins)

/-- Behind the first character of a placeholder no placeholder begins. -/
theorem counts_tail_token
    (first second : Placeholder) :
    Text.Counts second.token first.token.tail 0 := by
  have table : ∀ first ∈ all, ∀ second ∈ all, Text.Counts second.token first.token.tail 0 := by
    decide +kernel
  exact table first first.mem_all second second.mem_all

theorem ofToken?_token
    (placeholder : Placeholder) :
    ofToken? placeholder.token = some placeholder := by
  cases placeholder <;> decide +kernel

/-! ## Placeholders in a template -/

/-- A placeholder stands at an offset of a template. -/
def StandsAt (placeholder : Placeholder) (template : Text) (offset : Nat) : Prop :=
  placeholder.token <+: template.drop offset

/-- Of two placeholders in a template, one ends before the other begins, or they are one. -/
def Apart (template : Text) : Prop :=
  ∀ (first second : Placeholder) (start next : Nat),
    first.StandsAt template start →
    second.StandsAt template next →
    (first = second ∧ start = next) ∨
      start + first.token.length ≤ next ∨
      next + second.token.length ≤ start

theorem StandsAt.eq
    {offset : Nat}
    (isFirst : first.StandsAt template offset)
    (isSecond : second.StandsAt template offset) :
    first = second := by
  rcases List.prefix_or_prefix_of_prefix isFirst isSecond with before | before
  · exact eq_of_token_begins before
  · exact (eq_of_token_begins before).symm

/-- A placeholder that begins behind another one begins behind all of it. -/
theorem StandsAt.le_of_lt
    {start next : Nat}
    (isFirst : first.StandsAt template start)
    (isSecond : second.StandsAt template next)
    (behind : start < next) :
    start + first.token.length ≤ next := by
  by_contra overlap
  obtain ⟨rest, shape⟩ := isFirst
  obtain ⟨c, others, isToken⟩ := List.exists_cons_of_ne_nil first.token_ne_nil
  have inside : next - start - 1 < first.token.tail.length := by
    rw [List.length_tail]
    omega
  have remains : template.drop next = (first.token.tail ++ rest).drop (next - start - 1) := by
    calc template.drop next
        = (template.drop start).drop (next - start - 1 + 1) := by
          rw [List.drop_drop]
          congr 1
          omega
      _ = (first.token.tail ++ rest).drop (next - start - 1) := by
          rw [← shape, isToken, List.cons_append, List.drop_succ_cons, List.tail_cons]
  have notThere : Text.startsWith (template.drop next) second.token = false := by
    rw [remains]
    exact (counts_tail_token first second).startsWith_drop inside
  rw [Text.startsWith, List.isPrefixOf_iff_prefix.mpr isSecond] at notThere
  cases notThere

theorem apart
    (template : Text) :
    Apart template := by
  intro first second start next isFirst isSecond
  rcases Nat.lt_trichotomy start next with before | rfl | behind
  · exact Or.inr (Or.inl (isFirst.le_of_lt isSecond before))
  · exact Or.inl ⟨isFirst.eq isSecond, rfl⟩
  · exact Or.inr (Or.inr (isSecond.le_of_lt isFirst behind))

/-- Where a placeholder begins, it is recognised. -/
theorem recogniser_of_begins
    (begins : placeholder.token <+: text) :
    recogniser text = some (placeholder.token.length - 1) := by
  have someBegins : (tokens.find? text.startsWith).isSome = true := by
    rw [List.find?_isSome]
    exact ⟨placeholder.token, List.mem_map_of_mem placeholder.mem_all,
      List.isPrefixOf_iff_prefix.mpr begins⟩
  obtain ⟨token, found⟩ := Option.isSome_iff_exists.mp someBegins
  obtain ⟨other, _, rfl⟩ := List.mem_map.mp (List.mem_of_find?_eq_some found)
  have otherBegins : text.startsWith other.token = true := List.find?_some found
  have isOther : other = placeholder :=
    @StandsAt.eq other placeholder text 0 (List.isPrefixOf_iff_prefix.mp otherBegins) begins
  rw [recogniser, found, isOther]
  rfl

theorem recogniser_eq_none
    (noneBegins : ∀ placeholder : Placeholder, ¬ placeholder.token <+: text) :
    recogniser text = none := by
  rw [recogniser, Option.map_eq_none_iff, List.find?_eq_none]
  intro token member begins
  obtain ⟨placeholder, _, rfl⟩ := List.mem_map.mp member
  exact noneBegins placeholder (List.isPrefixOf_iff_prefix.mp begins)

end Placeholder

/-! ## Pieces of a template -/

/-- A piece of a template: a character that stays, or a placeholder. -/
inductive TemplatePiece where
  | plain (c : Char)
  | slot (placeholder : Placeholder)
  deriving Repr, DecidableEq

namespace TemplatePiece

/-- A piece as it stands in the template. -/
def source : TemplatePiece → Text
  | .plain c => [c]
  | .slot placeholder => placeholder.token

/-- A piece in the document: a placeholder has the value of its name, or stays as it is. -/
def filled (values : Text → Option Text) : TemplatePiece → Text
  | .plain c => [c]
  | .slot placeholder => (values placeholder.name).getD placeholder.token

/-- Pieces make up a template, and every placeholder in it is one of them. -/
structure Compose (template : Text) (pieces : List TemplatePiece) : Prop where
  whole : pieces.flatMap source = template
  slots :
    ∀ (placeholder : Placeholder) (offset : Nat),
      placeholder.StandsAt template offset ↔
        ∃ before after,
          pieces = before ++ .slot placeholder :: after ∧
            (before.flatMap source).length = offset

theorem source_length_pos
    (piece : TemplatePiece) :
    0 < piece.source.length := by
  cases piece with
  | plain c => exact Nat.one_pos
  | slot placeholder => exact List.length_pos_of_ne_nil placeholder.token_ne_nil

/-- A piece may stand before others, if no other placeholder begins in it. -/
theorem Compose.cons
    {piece : TemplatePiece}
    {pieces : List TemplatePiece}
    {rest : Text}
    (compose : Compose rest pieces)
    (within :
      ∀ (placeholder : Placeholder) (offset : Nat),
        offset < piece.source.length →
        (placeholder.StandsAt (piece.source ++ rest) offset ↔
          piece = .slot placeholder ∧ offset = 0)) :
    Compose (piece.source ++ rest) (piece :: pieces) where
  whole := by rw [List.flatMap_cons, compose.whole]
  slots := by
    intro placeholder offset
    have positive := piece.source_length_pos
    by_cases inPiece : offset < piece.source.length
    · rw [within placeholder offset inPiece]
      constructor
      · rintro ⟨rfl, rfl⟩
        exact ⟨[], pieces, rfl, rfl⟩
      · rintro ⟨before, after, shape, isOffset⟩
        cases before with
        | nil => exact ⟨(List.cons.inj shape).1, isOffset.symm⟩
        | cons first before =>
            obtain ⟨rfl, _⟩ := List.cons.inj shape
            rw [List.flatMap_cons, List.length_append] at isOffset
            omega
    · have further : placeholder.StandsAt (piece.source ++ rest) offset ↔
          placeholder.StandsAt rest (offset - piece.source.length) := by
        rw [Placeholder.StandsAt, Placeholder.StandsAt, List.drop_append,
          List.drop_eq_nil_of_le (Nat.le_of_not_lt inPiece), List.nil_append]
      rw [further, compose.slots]
      constructor
      · rintro ⟨before, after, rfl, isOffset⟩
        refine ⟨piece :: before, after, rfl, ?_⟩
        rw [List.flatMap_cons, List.length_append]
        omega
      · rintro ⟨before, after, shape, isOffset⟩
        cases before with
        | nil =>
            rw [List.flatMap_nil, List.length_nil] at isOffset
            omega
        | cons first before =>
            obtain ⟨rfl, rfl⟩ := List.cons.inj shape
            refine ⟨before, after, rfl, ?_⟩
            rw [List.flatMap_cons, List.length_append] at isOffset
            omega

theorem Compose.plain
    {c : Char}
    {rest : Text}
    {pieces : List TemplatePiece}
    (compose : Compose rest pieces)
    (noneBegins : ∀ placeholder : Placeholder, ¬ placeholder.token <+: c :: rest) :
    Compose (c :: rest) (.plain c :: pieces) := by
  refine @Compose.cons (.plain c) pieces rest compose fun placeholder offset inPiece => ?_
  obtain rfl : offset = 0 := Nat.lt_one_iff.mp inPiece
  exact iff_of_false (noneBegins placeholder) nofun

theorem Compose.slot
    {placeholder : Placeholder}
    {rest : Text}
    {pieces : List TemplatePiece}
    (compose : Compose rest pieces) :
    Compose (placeholder.token ++ rest) (.slot placeholder :: pieces) := by
  have atStart : placeholder.StandsAt (placeholder.token ++ rest) 0 := List.prefix_append _ _
  refine @Compose.cons (.slot placeholder) pieces rest compose fun other offset inPiece => ?_
  constructor
  · intro isOther
    have isStart : offset = 0 := by
      by_contra behind
      have := atStart.le_of_lt isOther (Nat.pos_of_ne_zero behind)
      exact absurd inPiece (by rw [TemplatePiece.source]; omega)
    subst isStart
    exact ⟨congrArg TemplatePiece.slot (atStart.eq isOther), rfl⟩
  · rintro ⟨⟨⟩, rfl⟩
    exact atStart

end TemplatePiece

/-! ## Filling -/

theorem fillTemplate_of_plain
    {c : Char}
    {rest : Text}
    (values : Placeholder → Option Text)
    (noneBegins : ∀ placeholder : Placeholder, ¬ placeholder.token <+: c :: rest) :
    fillTemplate values (c :: rest) = c :: fillTemplate values rest :=
  Text.replaceTokens_of_plain (Placeholder.recogniser_eq_none noneBegins)

theorem fillTemplate_of_token
    (values : Placeholder → Option Text)
    (placeholder : Placeholder)
    (rest : Text) :
    fillTemplate values (placeholder.token ++ rest) =
      (values placeholder).getD placeholder.token ++ fillTemplate values rest := by
  have begins : placeholder.token <+: placeholder.token ++ rest := List.prefix_append _ _
  have recognised := Placeholder.recogniser_of_begins begins
  have isPlaceholder := placeholder.ofToken?_token
  obtain ⟨c, others, isToken⟩ := List.exists_cons_of_ne_nil placeholder.token_ne_nil
  rw [isToken, List.cons_append, List.length_cons, Nat.add_sub_cancel] at recognised
  rw [isToken] at isPlaceholder ⊢
  rw [fillTemplate, List.cons_append, Text.replaceTokens_of_token recognised,
    List.take_left, List.drop_left, isPlaceholder]
  rfl

/--
The placeholders in a template stand apart. They are pieces of the template, which do not
depend on any value, and filling the template replaces each of them by the value of its name,
if there is one: all other characters stay, in their order.
-/
theorem fillTemplate_eq_flatMap_filled
    (template : Text) :
    Placeholder.Apart template ∧
      ∃ pieces : List TemplatePiece,
        TemplatePiece.Compose template pieces ∧
          ∀ values : Text → Option Text,
            fillTemplate (fun placeholder => values placeholder.name) template =
              pieces.flatMap (TemplatePiece.filled values) := by
  refine ⟨Placeholder.apart template, ?_⟩
  -- A placeholder is passed as a whole, so the induction is on the length that remains.
  induction length : template.length using Nat.strongRecOn generalizing template with
  | ind bound inductionHypothesis =>
      cases template with
      | nil =>
          refine ⟨[], ⟨rfl, fun placeholder offset => iff_of_false ?_ ?_⟩, fun values => rfl⟩
          · rw [Placeholder.StandsAt, List.drop_nil, List.prefix_nil]
            exact placeholder.token_ne_nil
          · rintro ⟨before, after, shape, _⟩
            exact List.append_ne_nil_of_right_ne_nil before (List.cons_ne_nil _ _) shape.symm
      | cons c rest =>
          by_cases begins : ∃ placeholder : Placeholder, placeholder.token <+: c :: rest
          · obtain ⟨placeholder, behind, shape⟩ := begins
            have positive := List.length_pos_of_ne_nil placeholder.token_ne_nil
            have shorter : behind.length < bound := by
              rw [← length, ← shape, List.length_append]
              omega
            obtain ⟨pieces, compose, isFilled⟩ := inductionHypothesis _ shorter behind rfl
            refine ⟨.slot placeholder :: pieces, shape ▸ compose.slot, fun values => ?_⟩
            rw [← shape, fillTemplate_of_token, isFilled, List.flatMap_cons]
            rfl
          · have noneBegins := not_exists.mp begins
            have shorter : rest.length < bound := by
              rw [← length]
              exact Nat.lt_succ_self _
            obtain ⟨pieces, compose, isFilled⟩ := inductionHypothesis _ shorter rest rfl
            refine ⟨.plain c :: pieces, compose.plain noneBegins, fun values => ?_⟩
            rw [fillTemplate_of_plain _ noneBegins, isFilled, List.flatMap_cons]
            rfl

/-- A value that looks like a placeholder, or completes one, is not looked at again. -/
example :
    let values : Text → Option Text :=
      fun name => if name = "TOTAL" then some "3" else some "\x7b\x7bTOTAL"
    fillTemplate (fun placeholder => values placeholder.name)
        "\x7b\x7bPASSED\x7d\x7d\x7d\x7d \x7b\x7bTOTAL\x7d\x7d" =
      "\x7b\x7bTOTAL\x7d\x7d 3".toList := by
  decide

end TestAudit
