import Mathlib.Order.Bounds.Basic
import TestAudit.Proofs.Source.Token

namespace TestAudit

/-!
# Where literals stop

The offset at which a literal stops is said here without its length: behind the opening,
the first place that ends the form decides, and the end of the text does when there is
none. In a string some characters go in pairs, an escape with the character behind it or a
quote with the one that doubles it, and no pair ends a string. A pair may begin with the
last character of a text; its second character is then none of the text.
-/

namespace LiteralForm

/-- Two characters that belong together begin here, wherever the literal began. -/
def PairBegins (form : LiteralForm) (text : Text) (offset : Nat) : Prop :=
  match form with
  | .lineComment _ | .blockComment _ _ => False
  | .verbatim _ => text[offset]? = some '\x22' ∧ text[offset + 1]? = some '\x22'
  | .quoted _ _ => text[offset]? = some '\\'

/-- In a literal that begins at `first`, an offset belongs to the character before it. -/
def IsSecond (form : LiteralForm) (text : Text) (first : Nat) : Nat → Prop
  | 0 => False
  | offset + 1 =>
      first + form.opening.length ≤ offset ∧
        form.PairBegins text offset ∧
        ¬ form.IsSecond text first offset

/-- What stands at a place makes a literal that begins at `first` stop at an offset. -/
inductive EndsAt (text : Text) (first place : Nat) : LiteralForm → Nat → Prop where
  /-- A comment up to the end of the line stops before the line feed. -/
  | lineFeed {opening : Text} :
      text[place]? = some '\n' →
      EndsAt text first place (.lineComment opening) place
  /-- A comment between markers stops behind the closing one. -/
  | marker {opening closing : Text} :
      closing <+: text.drop place →
      EndsAt text first place (.blockComment opening closing) (place + closing.length)
  /-- A string without escapes stops behind a quote that stands alone. -/
  | quote {opening : Text} :
      text[place]? = some '\x22' →
      ¬ (verbatim opening).PairBegins text place →
      ¬ (verbatim opening).IsSecond text first place →
      EndsAt text first place (.verbatim opening) (place + 1)
  /-- A string between delimiters stops behind the second one. -/
  | delimiter {delimiter : Text} {multiline : Bool} :
      delimiter <+: text.drop place →
      ¬ (quoted delimiter multiline).PairBegins text place →
      ¬ (quoted delimiter multiline).IsSecond text first place →
      EndsAt text first place (.quoted delimiter multiline) (place + delimiter.length)
  /-- A string on one line stops before the line feed. -/
  | brokenLine {delimiter : Text} :
      text[place]? = some '\n' →
      ¬ delimiter <+: text.drop place →
      ¬ (quoted delimiter false).IsSecond text first place →
      EndsAt text first place (.quoted delimiter false) place

/-- Where a literal stops of which everything before an offset has been passed over. -/
inductive StopsFrom (form : LiteralForm) (text : Text) (first offset : Nat) : Nat → Prop where
  /-- The first place that ends the literal. -/
  | closed {place stop : Nat} :
      IsLeast
        {place | offset ≤ place ∧ place < text.length ∧
          ∃ stop, form.EndsAt text first place stop} place →
      form.EndsAt text first place stop →
      StopsFrom form text first offset stop
  /-- No place ends the literal, so it goes on to the end of the text. -/
  | unclosed :
      (∀ place stop,
        offset ≤ place →
        place < text.length →
        ¬ form.EndsAt text first place stop) →
      StopsFrom form text first offset text.length

/-- Where a literal stops that begins at `first`. -/
def StopsAt (form : LiteralForm) (text : Text) (first stop : Nat) : Prop :=
  form.StopsFrom text first (first + form.opening.length) stop

/-- What a literal of a form covers that begins at one offset and stops at another. -/
structure Covers (form : LiteralForm) (text : Text) (first stop : Nat) : Prop where
  after : first < stop
  within : stop ≤ text.length
  lineComment :
    ∀ opening,
      form = .lineComment opening →
      IsLeast {place | first ≤ place ∧ (text[place]? = some '\n' ∨ place = text.length)} stop
  blockComment :
    ∀ opening closing,
      form = .blockComment opening closing →
      (∃ close,
          IsLeast {place | first + opening.length ≤ place ∧ closing <+: text.drop place} close ∧
            stop = close + closing.length) ∨
        (∀ place, first + opening.length ≤ place → ¬ closing <+: text.drop place) ∧
          stop = text.length
  lineString :
    ∀ delimiter,
      form = .quoted delimiter false →
      ∀ place,
        first ≤ place →
        place < stop →
        text[place]? = some '\n' →
        ∃ escape, place = escape + 1 ∧ first < escape ∧ text[escape]? = some '\\'

variable {form : LiteralForm} {text body : Text} {first offset place stop : Nat}

/-! ## Pairs -/

theorem not_isSecond_of_le
    (before : offset ≤ first + form.opening.length) :
    ¬ form.IsSecond text first offset := by
  cases offset with
  | zero => exact id
  | succ offset => exact fun second => Nat.not_succ_le_self offset (before.trans second.1)

theorem not_isSecond_succ
    (noPair : ¬ form.PairBegins text offset) :
    ¬ form.IsSecond text first (offset + 1) :=
  fun second => noPair second.2.1

theorem not_isSecond_pair
    (behind : first + form.opening.length ≤ offset)
    (pair : form.PairBegins text offset)
    (notSecond : ¬ form.IsSecond text first offset) :
    ¬ form.IsSecond text first (offset + 2) :=
  fun second => second.2.2 ⟨behind, pair, notSecond⟩

theorem ne_backslash
    {c : Char}
    {rest : Text}
    (notLast : c = '\\' → rest = [] → False)
    (notEscape : ∀ d more, c = '\\' → rest = d :: more → False) :
    c ≠ '\\' := by
  intro isBackslash
  cases rest with
  | nil => exact notLast isBackslash rfl
  | cons d more => exact notEscape d more isBackslash rfl

theorem not_pairBegins_of_ne
    {delimiter : Text}
    {multiline : Bool}
    {c : Char}
    (here : text[offset]? = some c)
    (notBackslash : c ≠ '\\') :
    ¬ (quoted delimiter multiline).PairBegins text offset :=
  fun isEscape => notBackslash (Option.some.inj (here.symm.trans isEscape))

/-! ## Endings -/

namespace EndsAt

theorem not_pairBegins
    (ends : form.EndsAt text first place stop) :
    ¬ form.PairBegins text place := by
  cases ends with
  | lineFeed => exact id
  | marker => exact id
  | quote _ notPair _ => exact notPair
  | delimiter _ notPair _ => exact notPair
  | brokenLine here =>
      intro isEscape
      cases here.symm.trans isEscape

theorem not_isSecond
    (ends : form.EndsAt text first place stop) :
    ¬ form.IsSecond text first place := by
  cases ends with
  | lineFeed => cases place <;> simp [IsSecond, PairBegins]
  | marker => cases place <;> simp [IsSecond, PairBegins]
  | quote _ _ notSecond => exact notSecond
  | delimiter _ _ notSecond => exact notSecond
  | brokenLine _ _ notSecond => exact notSecond

/-- What stands at a place decides where a literal stops that it ends. -/
theorem unique
    {other : Nat}
    (ends : form.EndsAt text first place stop)
    (endsToo : form.EndsAt text first place other) :
    stop = other := by
  cases ends with
  | lineFeed => cases endsToo; rfl
  | marker => cases endsToo; rfl
  | quote => cases endsToo; rfl
  | delimiter closes =>
      cases endsToo with
      | delimiter => rfl
      | brokenLine _ notClosed => exact (notClosed closes).elim
  | brokenLine _ notClosed =>
      cases endsToo with
      | delimiter closes => exact (notClosed closes).elim
      | brokenLine => rfl

end EndsAt

namespace StopsFrom

theorem here
    (within : offset < text.length)
    (ends : form.EndsAt text first offset stop) :
    form.StopsFrom text first offset stop :=
  .closed ⟨⟨Nat.le_refl offset, within, stop, ends⟩, fun _ other => other.1⟩ ends

theorem of_succ
    (goesOn : ∀ stop, ¬ form.EndsAt text first offset stop)
    (further : form.StopsFrom text first (offset + 1) stop) :
    form.StopsFrom text first offset stop := by
  have behind
      {place stop : Nat}
      (after : offset ≤ place)
      (ends : form.EndsAt text first place stop) :
      offset + 1 ≤ place := by
    rcases Nat.eq_or_lt_of_le after with rfl | beyond
    · exact (goesOn stop ends).elim
    · exact beyond
  cases further with
  | closed least ends =>
      obtain ⟨⟨after, within, _⟩, isLeast⟩ := least
      refine .closed ⟨⟨Nat.le_of_succ_le after, within, _, ends⟩, ?_⟩ ends
      rintro other ⟨otherAfter, otherWithin, otherStop, otherEnds⟩
      exact isLeast ⟨behind otherAfter otherEnds, otherWithin, otherStop, otherEnds⟩
  | unclosed none =>
      refine .unclosed ?_
      intro place stop after within ends
      exact none place stop (behind after ends) within ends

/-- No pair ends a literal, also when it begins with the last character of the text. -/
theorem of_pair
    (behind : first + form.opening.length ≤ offset)
    (pair : form.PairBegins text offset)
    (notSecond : ¬ form.IsSecond text first offset)
    (further : form.StopsFrom text first (offset + 2) stop) :
    form.StopsFrom text first offset stop := by
  have second : form.IsSecond text first (offset + 1) := ⟨behind, pair, notSecond⟩
  refine .of_succ (fun _ ends => ends.not_pairBegins pair) ?_
  exact .of_succ (fun _ ends => ends.not_isSecond second) further

theorem of_length_le
    (beyond : text.length ≤ offset) :
    form.StopsFrom text first offset text.length := by
  refine .unclosed ?_
  intro place stop after within
  omega

theorem of_drop_eq_nil
    (within : offset ≤ text.length)
    (isEnd : text.drop offset = []) :
    form.StopsFrom text first offset offset := by
  have beyond : text.length ≤ offset := List.drop_eq_nil_iff.mp isEnd
  have same : text.length = offset := Nat.le_antisymm beyond within
  have goesOn : form.StopsFrom text first offset text.length := of_length_le beyond
  rwa [same] at goesOn

/-- A literal stops at one offset only. -/
theorem unique
    {other : Nat}
    (stops : form.StopsFrom text first offset stop)
    (stopsToo : form.StopsFrom text first offset other) :
    stop = other := by
  cases stops with
  | closed least ends =>
      cases stopsToo with
      | closed leastToo endsToo =>
          obtain rfl := least.unique leastToo
          exact ends.unique endsToo
      | unclosed none => exact (none _ _ least.1.1 least.1.2.1 ends).elim
  | unclosed none =>
      cases stopsToo with
      | closed leastToo endsToo => exact (none _ _ leastToo.1.1 leastToo.1.2.1 endsToo).elim
      | unclosed => rfl

end StopsFrom

/-! ## The length of each form -/

theorem stopsFrom_lineComment
    {opening : Text}
    (within : offset ≤ text.length)
    (shape : text.drop offset = body) :
    (lineComment opening).StopsFrom text first offset
      (offset + (body.takeWhile (· != '\n')).length) := by
  induction body generalizing offset with
  | nil => exact .of_drop_eq_nil within shape
  | cons c rest inductionHypothesis =>
      obtain ⟨inText, here, after⟩ := Text.drop_eq_cons shape
      by_cases isEnd : c = '\n'
      · subst isEnd
        simpa using StopsFrom.here inText (.lineFeed here)
      · rw [List.takeWhile_cons_of_pos (by simpa using isEnd), List.length_cons,
          ← Nat.add_assoc, Nat.add_right_comm]
        refine .of_succ ?_ (inductionHypothesis inText after)
        intro stop ends
        cases ends with
        | lineFeed isLineFeed => exact isEnd (Option.some.inj (here.symm.trans isLineFeed))

theorem stopsFrom_blockComment
    {opening closing : Text}
    (within : offset ≤ text.length)
    (shape : text.drop offset = body) :
    (blockComment opening closing).StopsFrom text first offset
      (offset + lengthThrough closing body) := by
  induction body generalizing offset with
  | nil => exact .of_drop_eq_nil within shape
  | cons c rest inductionHypothesis =>
      obtain ⟨inText, _, after⟩ := Text.drop_eq_cons shape
      rw [lengthThrough, ← shape]
      split
      · next closes => exact .here inText (.marker (List.isPrefixOf_iff_prefix.mp closes))
      · next notHere =>
          rw [← Nat.add_assoc, Nat.add_right_comm]
          refine .of_succ ?_ (inductionHypothesis inText after)
          intro stop ends
          cases ends with
          | marker closes => exact notHere (List.isPrefixOf_iff_prefix.mpr closes)

section Strings

variable
  (within : offset ≤ text.length)
  (behind : first + form.opening.length ≤ offset)
  (notSecond : ¬ form.IsSecond text first offset)
  (shape : text.drop offset = body)

include within behind notSecond shape

theorem stopsFrom_verbatim
    {opening : Text}
    (isVerbatim : form = .verbatim opening) :
    form.StopsFrom text first offset (offset + verbatimLength body) := by
  subst isVerbatim
  fun_induction verbatimLength body generalizing offset with
  | case1 => exact .of_drop_eq_nil within shape
  | case2 rest inductionHypothesis =>
      obtain ⟨_, here, after⟩ := Text.drop_eq_cons shape
      obtain ⟨inText, hereToo, afterPair⟩ := Text.drop_eq_cons after
      rw [Nat.add_comm (verbatimLength rest), ← Nat.add_assoc]
      refine .of_pair behind ⟨here, hereToo⟩ notSecond ?_
      exact inductionHypothesis inText afterPair (by omega)
        (not_isSecond_pair behind ⟨here, hereToo⟩ notSecond)
  | case3 rest notDoubled =>
      obtain ⟨inText, here, after⟩ := Text.drop_eq_cons shape
      refine .here inText (.quote here ?_ notSecond)
      rintro ⟨_, hereToo⟩
      obtain ⟨further, isQuote⟩ := List.getElem?_eq_some_iff.mp hereToo
      rw [List.drop_eq_getElem_cons further, isQuote] at after
      exact notDoubled _ after.symm
  | case4 c rest _ notQuote inductionHypothesis =>
      obtain ⟨inText, here, after⟩ := Text.drop_eq_cons shape
      have noQuote : text[offset]? ≠ some '\x22' :=
        fun isQuote => notQuote (Option.some.inj (here.symm.trans isQuote))
      have noPair : ¬ (verbatim opening).PairBegins text offset :=
        fun pair => noQuote pair.1
      rw [← Nat.add_assoc, Nat.add_right_comm]
      refine .of_succ ?_ (inductionHypothesis inText after (by omega) (not_isSecond_succ noPair))
      intro stop ends
      cases ends with
      | quote isQuote => exact noQuote isQuote

theorem stopsFrom_quoted
    {delimiter : Text}
    {multiline : Bool}
    (isQuoted : form = .quoted delimiter multiline) :
    form.StopsFrom text first offset (offset + quotedLength delimiter multiline body) := by
  subst isQuoted
  fun_induction quotedLength delimiter multiline body generalizing offset with
  | case1 => exact .of_drop_eq_nil within shape
  | case2 =>
      obtain ⟨inText, here, after⟩ := Text.drop_eq_cons shape
      have isLast : text.length = offset + 1 :=
        Nat.le_antisymm (List.drop_eq_nil_iff.mp after) inText
      rw [← isLast]
      -- The pair leads over the end of the text, where nothing can end the literal.
      exact .of_pair behind here notSecond (.of_length_le (by omega))
  | case3 c rest inductionHypothesis =>
      obtain ⟨_, here, after⟩ := Text.drop_eq_cons shape
      obtain ⟨inText, _, afterPair⟩ := Text.drop_eq_cons after
      rw [Nat.add_comm (quotedLength delimiter multiline rest), ← Nat.add_assoc]
      refine .of_pair behind here notSecond ?_
      exact inductionHypothesis inText afterPair (by omega)
        (not_isSecond_pair behind here notSecond)
  | case4 c rest notLast notEscape closes =>
      obtain ⟨inText, here, _⟩ := Text.drop_eq_cons shape
      have noPair : ¬ (quoted delimiter multiline).PairBegins text offset :=
        not_pairBegins_of_ne here (ne_backslash notLast notEscape)
      rw [← shape] at closes
      exact .here inText (.delimiter (List.isPrefixOf_iff_prefix.mp closes) noPair notSecond)
  | case5 c rest _ _ notClosed isEnd =>
      obtain ⟨inText, here, _⟩ := Text.drop_eq_cons shape
      obtain ⟨rfl, rfl⟩ := isEnd
      rw [← shape, List.isPrefixOf_iff_prefix] at notClosed
      exact .here inText (.brokenLine here notClosed notSecond)
  | case6 c rest notLast notEscape notClosed goesOn inductionHypothesis =>
      obtain ⟨inText, here, after⟩ := Text.drop_eq_cons shape
      have noPair : ¬ (quoted delimiter multiline).PairBegins text offset :=
        not_pairBegins_of_ne here (ne_backslash notLast notEscape)
      rw [← shape, List.isPrefixOf_iff_prefix] at notClosed
      rw [← Nat.add_assoc, Nat.add_right_comm]
      refine .of_succ ?_ (inductionHypothesis inText after (by omega) (not_isSecond_succ noPair))
      intro stop ends
      cases ends with
      | delimiter closes => exact notClosed closes
      | brokenLine isLineFeed =>
          exact goesOn ⟨Option.some.inj (here.symm.trans isLineFeed), rfl⟩

end Strings

/-- A literal stops where its length says. -/
theorem stopsAt_of_shape
    (within : first ≤ text.length)
    (shape : text.drop first = form.opening ++ body) :
    form.StopsAt text first (first + form.opening.length + form.bodyLength body) := by
  have bodyWithin : first + form.opening.length ≤ text.length := by
    have lengths := congrArg List.length shape
    simp only [List.length_drop, List.length_append] at lengths
    omega
  have bodyShape : text.drop (first + form.opening.length) = body := by
    rw [← List.drop_drop, shape, List.drop_left]
  have notSecond : ¬ form.IsSecond text first (first + form.opening.length) :=
    not_isSecond_of_le (Nat.le_refl _)
  cases form with
  | lineComment opening => exact stopsFrom_lineComment bodyWithin bodyShape
  | blockComment opening closing => exact stopsFrom_blockComment bodyWithin bodyShape
  | verbatim opening =>
      exact stopsFrom_verbatim bodyWithin (Nat.le_refl _) notSecond bodyShape rfl
  | quoted delimiter multiline =>
      exact stopsFrom_quoted bodyWithin (Nat.le_refl _) notSecond bodyShape rfl

end LiteralForm

namespace Language

/-- The form of the literal that begins at an offset: the first one whose opening stands there. -/
def formAt? (language : Language) (text : Text) (offset : Nat) : Option LiteralForm :=
  language.literalForms.find? (·.opening.isPrefixOf (text.drop offset))

/-- The offset at which the literal stops that begins at an offset, if one does. -/
def literalStop? (language : Language) (text : Text) (offset : Nat) : Option Nat :=
  (language.literalLength? (text.drop offset)).map (offset + ·)

variable {language : Language} {text : Text} {form : LiteralForm} {first place stop : Nat}

theorem isSome_length?
    (form : LiteralForm)
    (text : Text) :
    (form.length? text).isSome = form.opening.isPrefixOf text := by
  rw [Bool.eq_iff_iff, List.isPrefixOf_iff_prefix, Option.isSome_iff_exists]
  constructor
  · rintro ⟨length, measures⟩
    obtain ⟨body, shape, _⟩ := LiteralForm.length?_eq_some_iff.mp measures
    exact ⟨body, shape.symm⟩
  · rintro ⟨body, shape⟩
    exact ⟨_, LiteralForm.length?_eq_some_iff.mpr ⟨body, shape.symm, rfl⟩⟩

/-- A literal is measured by the form that begins there. -/
theorem literal?_drop_eq_bind :
    language.literal? (text.drop first) =
      (language.formAt? text first).bind fun form =>
        (form.length? (text.drop first)).map (form, ·) := by
  unfold literal? formAt?
  induction language.literalForms with
  | nil => rfl
  | cons form later inductionHypothesis =>
      rw [List.findSome?_cons, List.find?_cons, ← isSome_length?]
      cases measures : form.length? (text.drop first) with
      | none => exact inductionHypothesis
      | some length => simp [measures]

theorem literalStop?_of_formAt?_eq_none
    (noForm : language.formAt? text first = none) :
    language.literalStop? text first = none := by
  rw [literalStop?, literalLength?, literal?_drop_eq_bind, noForm]
  rfl

/-- Where a form begins, its literal does, and stops as its length says. -/
theorem exists_body_of_formAt?
    (begins : language.formAt? text first = some form) :
    form ∈ language.literalForms ∧
      ∃ body,
        text.drop first = form.opening ++ body ∧
          language.literalStop? text first =
            some (first + form.opening.length + form.bodyLength body) := by
  have member : form ∈ language.literalForms := List.mem_of_find?_eq_some begins
  have opens : form.opening.isPrefixOf (text.drop first) = true := by
    simpa using List.find?_some begins
  obtain ⟨body, shape⟩ := List.isPrefixOf_iff_prefix.mp opens
  have measures : form.length? (text.drop first) = some (form.opening.length + form.bodyLength body) :=
    LiteralForm.length?_eq_some_iff.mpr ⟨body, shape.symm, rfl⟩
  refine ⟨member, body, shape.symm, ?_⟩
  rw [literalStop?, literalLength?, literal?_drop_eq_bind, begins, Option.bind_some, measures,
    Nat.add_assoc]
  rfl

/-- A literal takes at least one character and stops within its text. -/
theorem literalStop?_bounds
    (stops : language.literalStop? text first = some stop) :
    first < stop ∧ stop ≤ text.length := by
  obtain ⟨length, literal, rfl⟩ := Option.map_eq_some_iff.mp stops
  have bounds := literalLength?_bounds literal
  rw [List.length_drop] at bounds
  omega

/-- A literal stops where the first form that begins at its place does. -/
theorem literalStop?_eq_some_iff :
    language.literalStop? text first = some stop ↔
      ∃ form, language.formAt? text first = some form ∧ form.StopsAt text first stop := by
  cases begins : language.formAt? text first with
  | none => simp [literalStop?_of_formAt?_eq_none begins]
  | some form =>
      obtain ⟨member, body, shape, stops⟩ := exists_body_of_formAt? begins
      have bounds := literalStop?_bounds stops
      have stopsThere : form.StopsAt text first _ := LiteralForm.stopsAt_of_shape (by omega) shape
      rw [stops]
      constructor
      · intro same
        exact ⟨form, rfl, Option.some.inj same ▸ stopsThere⟩
      · rintro ⟨other, sameForm, stopsToo⟩
        cases sameForm
        rw [stopsThere.unique stopsToo]

/-! ## What literals cover -/

theorem lineFeed_not_mem_opening
    (member : form ∈ language.literalForms) :
    '\n' ∉ form.opening := by
  revert form
  cases language <;> decide

theorem closing_ne_nil
    {opening closing : Text}
    (member : .blockComment opening closing ∈ language.literalForms) :
    closing ≠ [] := by
  rintro rfl
  cases language <;> simp [literalForms] at member

section Covered

variable
  {body : Text}
  (member : form ∈ language.literalForms)
  (shape : text.drop first = form.opening ++ body)

include member shape

/-- A line feed in a literal stands behind its opening. -/
theorem behind_opening_of_lineFeed
    (after : first ≤ place)
    (isLineFeed : text[place]? = some '\n') :
    first + form.opening.length ≤ place := by
  apply Nat.le_of_not_lt
  intro inOpening
  obtain ⟨index, rfl⟩ := Nat.exists_eq_add_of_le after
  rw [← List.getElem?_drop, shape, List.getElem?_append_left (by omega)] at isLineFeed
  exact lineFeed_not_mem_opening member (List.mem_of_getElem? isLineFeed)

theorem isLeast_of_lineComment
    {opening : Text}
    (isComment : form = .lineComment opening)
    (bounds : first < stop ∧ stop ≤ text.length)
    (stops : form.StopsAt text first stop) :
    IsLeast {place | first ≤ place ∧ (text[place]? = some '\n' ∨ place = text.length)} stop := by
  subst isComment
  have isBehind {place : Nat} := @behind_opening_of_lineFeed _ _ _ _ place _ member shape
  cases stops with
  | closed least ends =>
      cases ends with
      | lineFeed here =>
          refine ⟨⟨Nat.le_of_lt bounds.1, Or.inl here⟩, ?_⟩
          rintro other ⟨after, isLineFeed | rfl⟩
          · have inText := (List.getElem?_eq_some_iff.mp isLineFeed).1
            exact least.2 ⟨isBehind after isLineFeed, inText, _, .lineFeed isLineFeed⟩
          · exact bounds.2
  | unclosed none =>
      refine ⟨⟨Nat.le_of_lt bounds.1, Or.inr rfl⟩, ?_⟩
      rintro other ⟨after, isLineFeed | rfl⟩
      · have inText := (List.getElem?_eq_some_iff.mp isLineFeed).1
        exact (none _ _ (isBehind after isLineFeed) inText (.lineFeed isLineFeed)).elim
      · exact Nat.le_refl _

omit shape in
theorem closed_or_unclosed_of_blockComment
    {opening closing : Text}
    (isComment : form = .blockComment opening closing)
    (stops : form.StopsAt text first stop) :
    (∃ close,
        IsLeast {place | first + opening.length ≤ place ∧ closing <+: text.drop place} close ∧
          stop = close + closing.length) ∨
      (∀ place, first + opening.length ≤ place → ¬ closing <+: text.drop place) ∧
        stop = text.length := by
  subst isComment
  have inText
      {place : Nat}
      (closes : closing <+: text.drop place) :
      place < text.length := by
    apply Nat.lt_of_not_le
    intro beyond
    rw [List.drop_eq_nil_of_le beyond] at closes
    exact closing_ne_nil member (List.prefix_nil.mp closes)
  cases stops with
  | @closed close _ least ends =>
      cases ends with
      | marker closes =>
          refine Or.inl ⟨close, ⟨⟨least.1.1, closes⟩, ?_⟩, rfl⟩
          rintro other ⟨after, closesToo⟩
          exact least.2 ⟨after, inText closesToo, _, .marker closesToo⟩
  | unclosed none =>
      refine Or.inr ⟨?_, rfl⟩
      intro place after closes
      exact none place _ after (inText closes) (.marker closes)

/-- In a string on one line, only an escape can bring a line feed. -/
theorem exists_escape_of_lineFeed
    {delimiter : Text}
    (isString : form = .quoted delimiter false)
    (stops : form.StopsAt text first stop)
    (after : first ≤ place)
    (before : place < stop)
    (isLineFeed : text[place]? = some '\n') :
    ∃ escape, place = escape + 1 ∧ first < escape ∧ text[escape]? = some '\\' := by
  have behind := behind_opening_of_lineFeed member shape after isLineFeed
  have inText := (List.getElem?_eq_some_iff.mp isLineFeed).1
  have opens : 0 < form.opening.length := List.length_pos_iff.mpr (opening_ne_nil member)
  subst isString
  -- No character of the delimiter is a line feed.
  have notInDelimiter
      {close : Nat}
      (closes : delimiter <+: text.drop close)
      (notBefore : close ≤ place) :
      close + delimiter.length ≤ place := by
    obtain ⟨rest, closeShape⟩ := closes
    exact behind_opening_of_lineFeed member closeShape.symm notBefore isLineFeed
  by_cases second : (LiteralForm.quoted delimiter false).IsSecond text first place
  · cases place with
    | zero => exact second.elim
    | succ escape =>
        obtain ⟨behindOpening, isEscape, _⟩ := second
        exact ⟨escape, rfl, by omega, isEscape⟩
  · have notHere : ¬ delimiter <+: text.drop place := by
      intro closes
      have beyond := notInDelimiter closes (Nat.le_refl place)
      simp only [LiteralForm.opening] at opens
      omega
    have endsHere : (LiteralForm.quoted delimiter false).EndsAt text first place place :=
      .brokenLine isLineFeed notHere second
    cases stops with
    | closed least ends =>
        have notAfter := least.2 ⟨behind, inText, _, endsHere⟩
        cases ends with
        | delimiter closes =>
            have beyond := notInDelimiter closes notAfter
            omega
        | brokenLine => omega
    | unclosed none => exact (none place place behind inText endsHere).elim

end Covered

/-- Every literal covers what its form asks for. -/
theorem covers_of_literalStop?
    (begins : language.formAt? text first = some form)
    (stopsThere : language.literalStop? text first = some stop) :
    form.Covers text first stop := by
  obtain ⟨member, body, shape, _⟩ := exists_body_of_formAt? begins
  obtain ⟨other, sameForm, stops⟩ := literalStop?_eq_some_iff.mp stopsThere
  cases begins.symm.trans sameForm
  have bounds := literalStop?_bounds stopsThere
  exact {
    after := bounds.1
    within := bounds.2
    lineComment := fun _ isComment =>
      isLeast_of_lineComment member shape isComment bounds stops
    blockComment := fun _ _ isComment =>
      closed_or_unclosed_of_blockComment member isComment stops
    lineString := fun _ isString _ after before =>
      exists_escape_of_lineFeed member shape isString stops after before }

/-! An escape and a verbatim quote that are the last of a text do not lead out of it. -/

example : script.literalStop? "\x27\\" 0 = some 2 := by decide

example : csharp.literalStop? "@\x22a\x22\x22" 0 = some 5 := by decide

end Language

end TestAudit
