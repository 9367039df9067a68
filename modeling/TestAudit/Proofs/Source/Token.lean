import Mathlib.Logic.Relation
import TestAudit.Proofs.Text.Mark
import TestAudit.Source.Literal
import TestAudit.Text.Blank

namespace TestAudit

/-!
# Tokens of a text

A text is read token by token: a literal is one token, and any other character
of code is a token of its own. An offset between two tokens is a boundary. Since
a token is determined by where it begins, two readings that meet at one boundary
stay together from there on, whatever either of them did before.
-/

namespace Text

theorem drop_eq_cons
    {text rest : Text}
    {offset : Nat}
    {c : Char}
    (shape : text.drop offset = c :: rest) :
    offset < text.length ∧ text[offset]? = some c ∧
      text.drop (offset + 1) = rest := by
  have within : offset < text.length := by
    apply Nat.lt_of_not_le
    intro beyond
    simp [List.drop_eq_nil_of_le beyond] at shape
  rw [List.drop_eq_getElem_cons within] at shape
  injection shape with head tail
  exact ⟨within, by rw [List.getElem?_eq_getElem within, head], tail⟩

end Text

namespace LiteralForm

theorem lengthThrough_le
    (closing text : Text) :
    lengthThrough closing text ≤ text.length := by
  induction text with
  | nil =>
      simp [lengthThrough]
  | cons c rest inductionHypothesis =>
      unfold lengthThrough
      split
      · next closes =>
          have begins : closing <+: c :: rest := by
            simpa using closes
          exact begins.length_le
      · simpa using inductionHypothesis

theorem verbatimLength_le
    (text : Text) :
    verbatimLength text ≤ text.length := by
  fun_induction verbatimLength text <;> simp <;> omega

theorem quotedLength_le
    (delimiter : Text)
    (multiline : Bool)
    (text : Text) :
    quotedLength delimiter multiline text ≤ text.length := by
  fun_induction quotedLength delimiter multiline text with
  | case1 => simp
  | case2 => simp
  | case3 second rest inductionHypothesis => simpa using inductionHypothesis
  | case4 c rest _ _ closes =>
      have begins : delimiter <+: c :: rest := by
        simpa using closes
      exact begins.length_le
  | case5 => simp
  | case6 c rest _ _ _ _ inductionHypothesis => simpa using inductionHypothesis

theorem bodyLength_le
    (form : LiteralForm)
    (body : Text) :
    form.bodyLength body ≤ body.length := by
  cases form with
  | lineComment opening =>
      exact (List.takeWhile_sublist _).length_le
  | blockComment opening closing =>
      exact lengthThrough_le closing body
  | verbatim opening =>
      exact verbatimLength_le body
  | quoted delimiter multiline =>
      exact quotedLength_le delimiter multiline body

theorem length?_eq_some_iff
    {form : LiteralForm}
    {text : Text}
    {length : Nat} :
    form.length? text = some length ↔
      ∃ body,
        text = form.opening ++ body ∧
          length = form.opening.length + form.bodyLength body := by
  simp only [length?, Option.map_eq_some_iff, Text.afterStart?_eq_some_iff]
  constructor
  · rintro ⟨body, shape, rfl⟩
    exact ⟨body, shape, rfl⟩
  · rintro ⟨body, shape, rfl⟩
    exact ⟨body, shape, rfl⟩

end LiteralForm

namespace Language

theorem opening_ne_nil
    {language : Language}
    {form : LiteralForm}
    (member : form ∈ language.literalForms) :
    form.opening ≠ [] := by
  revert form
  cases language <;> decide

theorem literal?_eq_some
    {language : Language}
    {text : Text}
    {form : LiteralForm}
    {length : Nat}
    (found : language.literal? text = some (form, length)) :
    form ∈ language.literalForms ∧ form.length? text = some length := by
  obtain ⟨candidate, member, applied⟩ :=
    List.exists_of_findSome?_eq_some found
  obtain ⟨measured, measures, same⟩ := Option.map_eq_some_iff.mp applied
  cases same
  exact ⟨member, measures⟩

theorem literalLength?_of_literal?
    {language : Language}
    {text : Text}
    {form : LiteralForm}
    {length : Nat}
    (found : language.literal? text = some (form, length)) :
    language.literalLength? text = some length := by
  rw [literalLength?, found]
  rfl

/-- A literal takes at least one character and ends within its text. -/
theorem literalLength?_bounds
    {language : Language}
    {text : Text}
    {length : Nat}
    (literal : language.literalLength? text = some length) :
    0 < length ∧ length ≤ text.length := by
  obtain ⟨⟨form, measured⟩, found, rfl⟩ := Option.map_eq_some_iff.mp literal
  obtain ⟨member, measures⟩ := literal?_eq_some found
  obtain ⟨body, shape, rfl⟩ := LiteralForm.length?_eq_some_iff.mp measures
  have opens : 0 < form.opening.length :=
    List.length_pos_iff.mpr (opening_ne_nil member)
  have ends : form.bodyLength body ≤ body.length :=
    form.bodyLength_le body
  subst shape
  simp only [List.length_append]
  omega

@[simp] theorem literalLength?_nil
    (language : Language) :
    language.literalLength? [] = none := by
  cases found : language.literalLength? [] with
  | none => rfl
  | some length =>
      have bounds := literalLength?_bounds found
      simp only [List.length_nil] at bounds
      omega

/-- The characters with which the literals of a language begin. -/
def literalHeads (language : Language) : Text :=
  language.literalForms.filterMap (·.opening.head?)

/-- No literal begins with any other character. -/
theorem literalLength?_of_not_mem_literalHeads
    {language : Language}
    {c : Char}
    {rest : Text}
    (notHead : c ∉ language.literalHeads) :
    language.literalLength? (c :: rest) = none := by
  cases found : language.literalLength? (c :: rest) with
  | none => rfl
  | some length =>
      obtain ⟨⟨form, measured⟩, isLiteral, _⟩ := Option.map_eq_some_iff.mp found
      obtain ⟨member, measures⟩ := literal?_eq_some isLiteral
      obtain ⟨body, shape, _⟩ := LiteralForm.length?_eq_some_iff.mp measures
      cases opens : form.opening with
      | nil => exact (opening_ne_nil member opens).elim
      | cons d opening =>
          rw [opens, List.cons_append] at shape
          injection shape with same _
          have isHead : c ∈ language.literalHeads :=
            List.mem_filterMap.mpr ⟨form, member, by rw [opens, same]; rfl⟩
          exact (notHead isHead).elim

theorem not_mem_literalHeads_of_isBlank
    {language : Language}
    {c : Char}
    (blank : Text.isBlank c = true) :
    c ∉ language.literalHeads := by
  have solid : language.literalHeads.all (!Text.isBlank ·) = true := by
    cases language <;> decide
  intro isHead
  have notBlank := List.all_eq_true.mp solid c isHead
  simp [blank] at notBlank

/-! ## Boundaries -/

/-- The token that begins at one offset ends at another. -/
inductive TokenEnds (language : Language) (text : Text) : Nat → Nat → Prop where
  /-- A literal is one token. -/
  | literal {offset length : Nat} :
      language.literalLength? (text.drop offset) = some length →
      TokenEnds language text offset (offset + length)
  /-- A character of code is one token. -/
  | code {offset : Nat} :
      offset < text.length →
      language.literalLength? (text.drop offset) = none →
      TokenEnds language text offset (offset + 1)

/-- Reading a text from one offset, token by token, comes to another. -/
def Reads (language : Language) (text : Text) : Nat → Nat → Prop :=
  Relation.ReflTransGen (TokenEnds language text)

/-- An offset between two tokens of a text that is read from its beginning. -/
def Boundary (language : Language) (text : Text) (offset : Nat) : Prop :=
  language.Reads text 0 offset

/-- An offset that is code when the text is read from a given offset on. -/
structure CodeFrom (language : Language) (text : Text) (first offset : Nat) : Prop where
  reads : language.Reads text first offset
  within : offset < text.length
  plain : language.literalLength? (text.drop offset) = none

/-- An offset that is code when the text is read from its beginning: no literal covers it. -/
def Code (language : Language) (text : Text) (offset : Nat) : Prop :=
  language.CodeFrom text 0 offset

variable {language : Language} {text : Text}

namespace TokenEnds

theorem lt
    {offset stop : Nat}
    (token : language.TokenEnds text offset stop) :
    offset < stop := by
  cases token with
  | literal found =>
      have := literalLength?_bounds found
      omega
  | code => omega

theorem le_length
    {offset stop : Nat}
    (token : language.TokenEnds text offset stop) :
    stop ≤ text.length := by
  cases token with
  | literal found =>
      have := literalLength?_bounds found
      simp only [List.length_drop] at this
      omega
  | code within => exact within

theorem exists_of_lt
    {offset : Nat}
    (within : offset < text.length) :
    ∃ stop, language.TokenEnds text offset stop := by
  cases found : language.literalLength? (text.drop offset) with
  | some length => exact ⟨_, .literal found⟩
  | none => exact ⟨_, .code within found⟩

/-- Where a token ends is determined by where it begins. -/
theorem rightUnique :
    Relator.RightUnique (language.TokenEnds text) := by
  intro offset left right first second
  cases first with
  | literal found =>
      cases second with
      | literal other => simp_all
      | code _ plain => simp_all
  | code _ plain =>
      cases second with
      | literal other => simp_all
      | code => rfl

end TokenEnds

namespace Reads

theorem le
    {first last : Nat}
    (reads : language.Reads text first last) :
    first ≤ last := by
  induction reads with
  | refl => exact Nat.le_refl first
  | tail _ token inductionHypothesis =>
      exact Nat.le_trans inductionHypothesis (Nat.le_of_lt token.lt)

/-- Of two offsets that one reading comes to, the later is read from the earlier. -/
theorem of_le
    {first left right : Nat}
    (toLeft : language.Reads text first left)
    (toRight : language.Reads text first right)
    (ordered : left ≤ right) :
    language.Reads text left right := by
  rcases Relation.ReflTransGen.total_of_right_unique
      TokenEnds.rightUnique toLeft toRight with ahead | behind
  · exact ahead
  · have same : right = left :=
      Nat.le_antisymm (Reads.le behind) ordered
    subst same
    exact .refl

/-- Reading goes over plain characters one by one. -/
theorem of_plain
    {first last : Nat}
    (ordered : first ≤ last)
    (plain :
      ∀ offset,
        offset < last →
        first ≤ offset →
        offset < text.length ∧ language.literalLength? (text.drop offset) = none) :
    language.Reads text first last := by
  induction ordered with
  | refl => exact .refl
  | @step last after inductionHypothesis =>
      have here := plain last (Nat.lt_succ_self last) after
      refine (inductionHypothesis ?_).tail (.code here.1 here.2)
      intro offset before notBefore
      exact plain offset (Nat.lt_succ_of_lt before) notBefore

/-- Reading goes over a text in which no literal begins. -/
theorem of_not_mem_literalHeads
    {first last : Nat}
    (noHead : ∀ c ∈ text, c ∉ language.literalHeads)
    (ordered : first ≤ last)
    (within : last ≤ text.length) :
    language.Reads text first last := by
  refine .of_plain ordered ?_
  intro offset before after
  have inText : offset < text.length := by omega
  refine ⟨inText, ?_⟩
  rw [List.drop_eq_getElem_cons inText]
  exact literalLength?_of_not_mem_literalHeads (noHead _ (List.getElem_mem inText))

/-- Every character of a text is in a token that reading from before it comes to. -/
theorem exists_token
    {first offset : Nat}
    (after : first ≤ offset)
    (within : offset < text.length) :
    ∃ start stop,
      language.Reads text first start ∧
        language.TokenEnds text start stop ∧
        start ≤ offset ∧ offset < stop := by
  induction remaining : offset - first using Nat.strongRecOn generalizing first with
  | ind remaining inductionHypothesis =>
      subst remaining
      obtain ⟨stop, token⟩ := TokenEnds.exists_of_lt (Nat.lt_of_le_of_lt after within)
      by_cases inside : offset < stop
      · exact ⟨first, stop, .refl, token, after, inside⟩
      · have progress := token.lt
        obtain ⟨start, last, reads, further⟩ :=
          inductionHypothesis _ (by omega) (Nat.le_of_not_lt inside) rfl
        exact ⟨start, last, .head token reads, further⟩

/-- No reading stops inside a token that it begins. -/
theorem not_inside
    {first offset stop inner : Nat}
    (reads : language.Reads text first offset)
    (token : language.TokenEnds text offset stop)
    (after : offset < inner)
    (before : inner < stop) :
    ¬ language.Reads text first inner := by
  intro toInner
  have fromStop : language.Reads text inner stop :=
    toInner.of_le (reads.tail token) (Nat.le_of_lt before)
  have fromOffset : language.Reads text offset inner :=
    reads.of_le toInner (Nat.le_of_lt after)
  rcases Relation.ReflTransGen.cases_head fromOffset with same | ⟨next, step, rest⟩
  · omega
  · have sameStop : next = stop :=
      TokenEnds.rightUnique step token
    have := Reads.le rest
    omega

end Reads

namespace CodeFrom

theorem le
    {first offset : Nat}
    (code : language.CodeFrom text first offset) :
    first ≤ offset :=
  code.reads.le

/-- All of a text in which no literal begins is code. -/
theorem of_not_mem_literalHeads
    {first offset : Nat}
    (noHead : ∀ c ∈ text, c ∉ language.literalHeads)
    (ordered : first ≤ offset)
    (within : offset < text.length) :
    language.CodeFrom text first offset := by
  refine ⟨.of_not_mem_literalHeads noHead ordered (Nat.le_of_lt within), within, ?_⟩
  rw [List.drop_eq_getElem_cons within]
  exact literalLength?_of_not_mem_literalHeads (noHead _ (List.getElem_mem within))

theorem tokenEnds
    {first offset : Nat}
    (code : language.CodeFrom text first offset) :
    language.TokenEnds text offset (offset + 1) :=
  .code code.within code.plain

/-- From a boundary of one reading on, a second reading finds the same code. -/
theorem iff_of_reads
    {first second offset : Nat}
    (reads : language.Reads text first second)
    (after : second ≤ offset) :
    language.CodeFrom text second offset ↔
      language.CodeFrom text first offset := by
  constructor
  · intro code
    exact ⟨reads.trans code.reads, code.within, code.plain⟩
  · intro code
    exact ⟨reads.of_le code.reads after, code.within, code.plain⟩

/-- A literal at the beginning of a reading holds no code. -/
theorem iff_of_literal
    {first length offset : Nat}
    (literal : language.literalLength? (text.drop first) = some length) :
    language.CodeFrom text first offset ↔
      language.CodeFrom text (first + length) offset := by
  constructor
  · intro code
    rcases Relation.ReflTransGen.cases_head code.reads with rfl | ⟨next, step, rest⟩
    · have plain := code.plain
      simp [literal] at plain
    · have sameNext : next = first + length :=
        TokenEnds.rightUnique step (.literal literal)
      subst sameNext
      exact ⟨rest, code.within, code.plain⟩
  · intro code
    exact ⟨.head (.literal literal) code.reads, code.within, code.plain⟩

/-- Code that is read from a character of code on is that character or comes behind it. -/
theorem iff_of_plain
    {first offset : Nat}
    (within : first < text.length)
    (plain : language.literalLength? (text.drop first) = none) :
    language.CodeFrom text first offset ↔
      offset = first ∨ language.CodeFrom text (first + 1) offset := by
  constructor
  · intro code
    rcases Relation.ReflTransGen.cases_head code.reads with rfl | ⟨next, step, rest⟩
    · exact Or.inl rfl
    · have sameNext : next = first + 1 :=
        TokenEnds.rightUnique step (.code within plain)
      subst sameNext
      exact Or.inr ⟨rest, code.within, code.plain⟩
  · rintro (rfl | code)
    · exact ⟨.refl, within, plain⟩
    · exact ⟨.head (.code within plain) code.reads, code.within, code.plain⟩

end CodeFrom

end Language

end TestAudit
