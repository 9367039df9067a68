import TestAudit.Json.Parser
import TestAudit.Proofs.Outcome
import TestAudit.Proofs.Text.Mark

namespace TestAudit.Json

/-!
# Integers that are too long

Reading goes on in what is left of a text, which is always an ending of it. So where
reading stops at an integer of too many digits, so many digits stand in the text next to
each other.
-/

/-- A text has that many digits next to each other, more than a numeral may have. -/
def HasLongRun (text : Text) (digits : Nat) : Prop :=
  Text.digitLimit < digits ∧
    ∃ run : Text, run <:+: text ∧ run.length = digits ∧ run.all Char.isDigit = true

theorem HasLongRun.of_suffix
    {text rest : Text}
    {digits : Nat}
    (suffix : rest <:+ text)
    (long : HasLongRun rest digits) :
    HasLongRun text digits := by
  obtain ⟨exceeds, run, inRest, length, areDigits⟩ := long
  exact ⟨exceeds, run, inRest.trans suffix.isInfix, length, areDigits⟩

/--
What reading a text may come to: a value and an ending of the text, a syntax fault, or an
integer that stands in the text and is too long.
-/
def Reads {α : Type} (text : Text) : Except Stop (α × Text) → Prop
  | .ok (_, rest) => rest <:+ text
  | .error (.syntaxFault _ _) => True
  | .error (.integerTooLong digits) => HasLongRun text digits

variable {α β : Type} {text : Text}

theorem Reads.of_suffix
    {rest : Text}
    {outcome : Except Stop (α × Text)}
    (suffix : rest <:+ text)
    (reads : Reads rest outcome) :
    Reads text outcome := by
  rcases outcome with (⟨fault, left⟩ | digits) | ⟨value, after⟩
  · trivial
  · exact HasLongRun.of_suffix suffix reads
  · exact List.IsSuffix.trans reads suffix

/-- Reading on in what is left of a text. -/
theorem Reads.bind
    {outcome : Except Stop (α × Text)}
    {next : α × Text → Except Stop (β × Text)}
    (reads : Reads text outcome)
    (readsOn : ∀ value rest, rest <:+ text → Reads text (next (value, rest))) :
    Reads text (outcome >>= next) := by
  rcases outcome with (⟨fault, left⟩ | digits) | ⟨value, rest⟩
  · trivial
  · exact reads
  · exact readsOn value rest reads

theorem skipBlanks_suffix (text : Text) : skipBlanks text <:+ text :=
  List.dropWhile_suffix _

/-! ## Strings -/

/-- An escape is read, or it is a syntax fault. -/
theorem escape_ne_integerTooLong
    (opening text : Text)
    (digits : Nat) :
    escape opening text ≠ .error (.integerTooLong digits) := by
  unfold escape unicodeEscape
  repeat' split
  all_goals simp

theorem reads_stringBody
    (opening : Text)
    (skip : Nat)
    (text : Text) :
    Reads text (stringBody opening skip text) := by
  -- What an escape takes is skipped character by character, so the text decreases in each case.
  induction text generalizing skip with
  | nil => cases skip <;> trivial
  | cons c rest inductionHypothesis =>
      have behind : rest <:+ c :: rest := List.suffix_cons c rest
      have on (skip : Nat) : Reads (c :: rest) (stringBody opening skip rest) :=
        (inductionHypothesis skip).of_suffix behind
      cases skip with
      | succ skip => exact on skip
      | zero =>
          rw [stringBody]
          split
          · exact behind
          · split
            · cases escaped : escape opening rest with
              | ok found => exact (on found.2).bind fun _ _ suffix => suffix
              | error stop =>
                  cases stop with
                  | syntaxFault fault left => trivial
                  | integerTooLong digits =>
                      exact (escape_ne_integerTooLong opening rest digits escaped).elim
            · split
              · trivial
              · exact (on 0).bind fun _ _ suffix => suffix

theorem reads_stringAfterQuote (rest : Text) : Reads rest (stringAfterQuote rest) :=
  reads_stringBody _ 0 rest

/-! ## Numbers -/

theorem signOf_suffix (text : Text) : (Text.signOf text).2 <:+ text := by
  unfold Text.signOf
  split
  · exact List.suffix_cons _ _
  · exact List.suffix_cons _ _
  · exact List.suffix_rfl

/-- The digits before a point stand in front of the text. -/
theorem wholeDigits?_eq_some
    {whole after : Text}
    (found : wholeDigits? text = some (whole, after)) :
    text = whole ++ after ∧ whole.all Char.isDigit = true := by
  unfold wholeDigits? at found
  split at found
  · cases found
    exact ⟨rfl, rfl⟩
  · split at found
    · cases found
      exact ⟨List.takeWhile_append_dropWhile.symm, List.all_takeWhile⟩
    · cases found
  · cases found

theorem fractionDigits?_suffix
    {digits after : Text}
    (found : fractionDigits? text = some (digits, after)) :
    after <:+ text := by
  unfold fractionDigits? at found
  split at found
  next rest =>
    split at found
    · cases found
    · cases found
      exact (List.dropWhile_suffix _).trans (List.suffix_cons _ _)
  next => cases found

theorem exponent?_suffix
    {exponent : Int}
    {after : Text}
    (found : exponent? text = some (exponent, after)) :
    after <:+ text := by
  unfold exponent? at found
  split at found
  next c rest =>
    split at found
    · dsimp only at found
      split at found
      · cases found
      next digits after _ isSpan =>
        cases found
        have behind : after = (spanDigits (Text.signOf rest).2).2 := by rw [isSpan]
        rw [behind]
        exact (List.dropWhile_suffix _).trans ((signOf_suffix rest).trans (List.suffix_cons c rest))
    · cases found
  next => cases found

/-- A number ends where its whole digits end, or behind a fraction or an exponent. -/
theorem reads_number?
    {outcome : Except Stop (Value × Text)}
    (found : number? text = some outcome) :
    Reads text outcome := by
  unfold number? at found
  split at found
  rename_i negative unsigned signed
  have unsignedSuffix : unsigned <:+ text := by
    split at signed
    · cases signed
      exact List.suffix_cons _ _
    · cases signed
      exact List.suffix_rfl
  obtain ⟨⟨whole, afterWhole⟩, isWhole, same⟩ := Option.map_eq_some_iff.mp found
  subst same
  obtain ⟨shape, areDigits⟩ := wholeDigits?_eq_some isWhole
  have wholeSuffix : afterWhole <:+ text :=
    (shape ▸ List.suffix_append whole afterWhole).trans unsignedSuffix
  have fractionSuffix : ((fractionDigits? afterWhole).getD ([], afterWhole)).2 <:+ text := by
    cases isFraction : fractionDigits? afterWhole with
    | none => exact wholeSuffix
    | some fraction => exact (fractionDigits?_suffix isFraction).trans wholeSuffix
  dsimp only
  generalize (fractionDigits? afterWhole).getD ([], afterWhole) = decimals at fractionSuffix ⊢
  have powerSuffix : ((exponent? decimals.2).getD (0, decimals.2)).2 <:+ text := by
    cases isPower : exponent? decimals.2 with
    | none => exact fractionSuffix
    | some power => exact (exponent?_suffix isPower).trans fractionSuffix
  split
  · split
    next exceeds =>
      exact ⟨exceeds, whole,
        (shape ▸ (List.prefix_append whole afterWhole).isInfix).trans unsignedSuffix.isInfix,
        rfl, areDigits⟩
    next => exact wholeSuffix
  · exact powerSuffix

theorem reads_scalar (text : Text) : Reads text (scalar text) := by
  unfold scalar
  split
  next reading found =>
    obtain ⟨⟨word, value⟩, _, isWord⟩ := List.exists_of_findSome?_eq_some found
    obtain ⟨rest, isRest, same⟩ := Option.map_eq_some_iff.mp isWord
    subst same
    exact ⟨word, (Text.afterStart?_eq_some_iff.mp isRest).symm⟩
  next =>
    cases found : number? text with
    | none => trivial
    | some outcome => exact reads_number? found

/-! ## Values -/

/-- A value, items and members are read from what is left of a text. -/
theorem reads_value_items_members
    (fuel : Nat)
    (text : Text) :
    Reads text (value fuel text) ∧ Reads text (items fuel text) ∧
      Reads text (members fuel text) := by
  induction fuel generalizing text with
  | zero => exact ⟨trivial, trivial, trivial⟩
  | succ fuel inductionHypothesis =>
      have onValue {rest : Text} (suffix : rest <:+ text) : Reads text (value fuel rest) :=
        (inductionHypothesis rest).1.of_suffix suffix
      have onItems {rest : Text} (suffix : rest <:+ text) : Reads text (items fuel rest) :=
        (inductionHypothesis rest).2.1.of_suffix suffix
      have onMembers {rest : Text} (suffix : rest <:+ text) : Reads text (members fuel rest) :=
        (inductionHypothesis rest).2.2.of_suffix suffix
      have skipped {rest left : Text} (suffix : rest <:+ text) (same : skipBlanks rest = left) :
          left <:+ text :=
        same ▸ (skipBlanks_suffix rest).trans suffix
      refine ⟨?_, ?_, ?_⟩
      · unfold value
        split
        next rest =>
          exact ((reads_stringAfterQuote rest).of_suffix (List.suffix_cons _ _)).bind
            fun _ _ suffix => suffix
        next rest =>
          split
          next after closes =>
            exact (List.suffix_cons _ _).trans (skipped (List.suffix_cons _ _) closes)
          next =>
            exact (onItems (skipped (List.suffix_cons _ _) rfl)).bind fun _ _ suffix => suffix
        next rest =>
          split
          next after closes =>
            exact (List.suffix_cons _ _).trans (skipped (List.suffix_cons _ _) closes)
          next =>
            exact (onMembers (skipped (List.suffix_cons _ _) rfl)).bind fun _ _ suffix => suffix
        next => exact reads_scalar text
      · rw [items]
        refine (onValue List.suffix_rfl).bind fun first rest suffix => ?_
        dsimp only
        split
        next after closes => exact (List.suffix_cons _ _).trans (skipped suffix closes)
        next after goesOn =>
          have behind := (List.suffix_cons _ _).trans (skipped suffix goesOn)
          exact (onItems (skipped behind rfl)).bind fun _ _ suffix => suffix
        next => trivial
      · unfold members
        split
        next rest =>
          refine ((reads_stringAfterQuote rest).of_suffix (List.suffix_cons _ _)).bind
            fun name rest suffix => ?_
          dsimp only
          split
          next after colon =>
            have behind := (List.suffix_cons _ _).trans (skipped suffix colon)
            refine (onValue (skipped behind rfl)).bind fun first rest suffix => ?_
            dsimp only
            split
            next after closes => exact (List.suffix_cons _ _).trans (skipped suffix closes)
            next after goesOn =>
              have behind := (List.suffix_cons _ _).trans (skipped suffix goesOn)
              exact (onMembers (skipped behind rfl)).bind fun _ _ suffix => suffix
            next => trivial
          next => trivial
        next => trivial

/-- Where reading a text stops at an integer of too many digits, the text has so many. -/
theorem hasLongRun_of_parse
    {digits : Nat}
    (tooLong : parse text = .error (.integerTooLong digits)) :
    HasLongRun text digits := by
  obtain ⟨stop, stops, same⟩ := Outcome.mapError_eq_error_iff.mp tooLong
  have isTooLong : stop = .integerTooLong digits := by
    cases stop <;> simp_all
  subst isTooLong
  rw [document] at stops
  split at stops
  · cases stops
  · have reads := (reads_value_items_members (2 * text.length + 1) (skipBlanks text)).1
    rcases Outcome.bind_eq_error_iff.mp stops with inValue | ⟨⟨read, rest⟩, _, behind⟩
    · rw [inValue] at reads
      exact HasLongRun.of_suffix (skipBlanks_suffix text) reads
    · dsimp only at behind
      split at behind <;> cases behind

end TestAudit.Json
