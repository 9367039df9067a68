import TestAudit.Proofs.Json.Grammar

namespace TestAudit.Json

/-!
# What is written says what it was written for

In either layout, a value without fractions is written as a text of the grammar that says
this value. What stands behind it must not go on with a digit, for an integer ends where its
digits do.
-/

/-! ## Strings -/

theorem hexValue?_digitChar :
    ∀ digit < 16, hexValue? (Nat.digitChar digit) = some digit := by
  decide

/-- A code unit is written as four digits that denote it. -/
theorem exists_isUnit
    {unit : Nat}
    (isUnit : unit < 0x10000) :
    ∃ first second third fourth,
      Text.hexadecimal 4 unit = [first, second, third, fourth] ∧
        IsUnit first second third fourth unit := by
  refine ⟨_, _, _, _, Text.hexadecimal_four isUnit, _, _, _, _,
    hexValue?_digitChar _ ?_, hexValue?_digitChar _ ?_, hexValue?_digitChar _ ?_,
    hexValue?_digitChar _ ?_, ?_⟩ <;> omega

/-- A character beyond the first plane is that of its two code units. -/
theorem charOfPair_of_toNat
    {c : Char}
    (beyond : 0x10000 ≤ c.toNat) :
    charOfPair (0xD800 + (c.toNat - 0x10000) / 0x400) (0xDC00 + (c.toNat - 0x10000) % 0x400) =
      c := by
  have number :
      0x10000 + (0xD800 + (c.toNat - 0x10000) / 0x400 - 0xD800) * 0x400 +
          (0xDC00 + (c.toNat - 0x10000) % 0x400 - 0xDC00) =
        c.toNat := by
    omega
  rw [charOfPair, number, Char.ofNat_toNat]

theorem takesString_unitEscape
    {c : Char}
    (isUnit : c.toNat < 0x10000)
    {chars text rest : Text}
    (takes : TakesString chars text rest) :
    TakesString (c :: chars) (unitEscape c.toNat ++ text) rest := by
  obtain ⟨first, second, third, fourth, digits, denotes⟩ := exists_isUnit isUnit
  rw [unitEscape, digits]
  exact .unit denotes takes

/-- The two escapes of a character beyond the first plane. -/
theorem takesString_pairEscape
    {c : Char}
    (beyond : 0x10000 ≤ c.toNat)
    {chars text rest : Text}
    (takes : TakesString chars text rest) :
    TakesString (c :: chars)
      (unitEscape (0xD800 + (c.toNat - 0x10000) / 0x400) ++
        unitEscape (0xDC00 + (c.toNat - 0x10000) % 0x400) ++ text) rest := by
  have bounds := toNat_bounds c
  have highBound : (c.toNat - 0x10000) / 0x400 < 0x400 := by omega
  have lowBound : (c.toNat - 0x10000) % 0x400 < 0x400 := by omega
  have isPair := charOfPair_of_toNat beyond
  generalize (c.toNat - 0x10000) / 0x400 = high at highBound isPair ⊢
  generalize (c.toNat - 0x10000) % 0x400 = low at lowBound isPair ⊢
  have isHigh : 0xD800 + high < 0x10000 := by omega
  have isLow : 0xDC00 + low < 0x10000 := by omega
  obtain ⟨a, b, d, e, highDigits, denotesHigh⟩ := exists_isUnit isHigh
  obtain ⟨f, g, h, i, lowDigits, denotesLow⟩ := exists_isUnit isLow
  rw [unitEscape, unitEscape, highDigits, lowDigits, ← isPair]
  refine .pair denotesHigh denotesLow ?_ ?_ takes
  · simp only [isHighSurrogate, Bool.and_eq_true, decide_eq_true_eq]
    omega
  · simp only [isLowSurrogate, Bool.and_eq_true, decide_eq_true_eq]
    omega

theorem takesString_escapeChar
    (c : Char)
    {chars text rest : Text}
    (takes : TakesString chars text rest) :
    TakesString (c :: chars) (escapeChar c ++ text) rest := by
  unfold escapeChar
  split
  next quote => exact quote ▸ .letter rfl takes
  next notQuote =>
    split
    next backslash => exact backslash ▸ .letter rfl takes
    next notBackslash =>
      split
      next isLetter => exact isLetter ▸ .letter rfl takes
      split
      next isLetter => exact isLetter ▸ .letter rfl takes
      split
      next isLetter => exact isLetter ▸ .letter rfl takes
      split
      next isLetter => exact isLetter ▸ .letter rfl takes
      split
      next isLetter => exact isLetter ▸ .letter rfl takes
      split
      next shown => exact .plain notQuote notBackslash shown.1 takes
      split
      next isUnit => exact takesString_unitEscape isUnit takes
      next beyond => exact takesString_pairEscape (Nat.not_lt.mp beyond) takes

theorem takesString_flatMap
    (chars rest : Text) :
    TakesString chars (chars.flatMap escapeChar ++ '\x22' :: rest) rest := by
  induction chars with
  | nil => exact .close
  | cons c chars inductionHypothesis =>
      rw [List.flatMap_cons, List.append_assoc]
      exact takesString_escapeChar c inductionHypothesis

/-! ## Gaps -/

theorem Says.of_gaps
    {gap text rest : Text}
    {value : Value}
    (areGaps : ∀ c ∈ gap, isGap c = true)
    (said : Says (.value value) text rest) :
    Says (.value value) (gap ++ text) rest := by
  induction gap with
  | nil => exact said
  | cons c gap inductionHypothesis =>
      obtain ⟨isGap, areGaps⟩ := List.forall_mem_cons.mp areGaps
      exact .gap isGap (inductionHypothesis areGaps)

theorem Takes.of_gaps
    {mark : Char}
    {gap text rest : Text}
    (areGaps : ∀ c ∈ gap, isGap c = true)
    (takes : Takes mark text rest) :
    Takes mark (gap ++ text) rest := by
  induction gap with
  | nil => exact takes
  | cons c gap inductionHypothesis =>
      obtain ⟨isGap, areGaps⟩ := List.forall_mem_cons.mp areGaps
      exact .gap isGap (inductionHypothesis areGaps)

theorem isGap_of_mem_newLine
    {level : Nat} :
    ∀ c ∈ newLine level, isGap c = true := by
  intro c member
  rcases List.mem_cons.mp member with rfl | isBlank
  · rfl
  · rw [List.eq_of_mem_replicate isBlank]
    rfl

theorem Layout.isGap_of_mem_margin
    (layout : Layout)
    (level : Nat) :
    ∀ c ∈ layout.margin level, isGap c = true := by
  cases layout with
  | oneLine => exact List.forall_mem_nil _
  | indented => exact isGap_of_mem_newLine

/-- A separator is a comma and gaps. -/
theorem Layout.exists_separator
    (layout : Layout)
    (level : Nat) :
    ∃ gap, layout.separator level = ',' :: gap ∧ ∀ c ∈ gap, isGap c = true := by
  cases layout with
  | oneLine => exact ⟨[' '], rfl, List.forall_mem_singleton.mpr rfl⟩
  | indented => exact ⟨newLine level, rfl, isGap_of_mem_newLine⟩

theorem Takes.noDigit
    {mark : Char}
    {text rest : Text}
    (solid : mark.isDigit = false)
    (takes : Takes mark text rest) :
    Text.NoDigit text := by
  rintro c others rfl
  cases takes with
  | mark => exact solid
  | gap gap _ =>
      have noScalar := beginsScalar_of_isGap gap
      simp only [beginsScalar, Bool.or_eq_false_iff] at noScalar
      exact noScalar.2

theorem Says.noDigit_moreItems
    {items : List Value}
    {text rest : Text}
    (said : Says (.moreItems items) text rest) :
    Text.NoDigit text := by
  cases said with
  | lastItem takes => exact takes.noDigit rfl
  | nextItem takes => exact takes.noDigit rfl

theorem Says.noDigit_moreMembers
    {members : List (Text × Value)}
    {text rest : Text}
    (said : Says (.moreMembers members) text rest) :
    Text.NoDigit text := by
  cases said with
  | lastMember takes => exact takes.noDigit rfl
  | nextMember takes => exact takes.noDigit rfl

/-! ## Values -/

namespace Value

mutual

/-- Whether a value holds no number with a fraction or an exponent. -/
def isExact : Value → Bool
  | .real _ => false
  | .array items => areExact items
  | .object members => haveExact members
  | .null | .boolean _ | .integer _ | .string _ => true

/-- Whether no item holds such a number. -/
def areExact : List Value → Bool
  | [] => true
  | item :: items => item.isExact && areExact items

/-- Whether no member holds such a number. -/
def haveExact : List (Text × Value) → Bool
  | [] => true
  | (_, value) :: members => value.isExact && haveExact members

end

theorem areExact_map
    {α : Type}
    {change : α → Value}
    (exact : ∀ item, (change item).isExact = true)
    (items : List α) :
    areExact (items.map change) = true := by
  induction items with
  | nil => rfl
  | cons item others inductionHypothesis =>
      exact (Bool.and_eq_true _ _).mpr ⟨exact item, inductionHypothesis⟩

end Value

theorem says_stringText
    (chars rest : Text) :
    Says (.value (.string chars)) (stringText chars ++ rest) rest := by
  rw [stringText, List.append_assoc, List.cons_append]
  exact .string (takesString_flatMap chars rest)

/-- A name is written with gaps before it, and a colon and a blank behind it. -/
theorem takesName_stringText
    {gap : Text}
    (areGaps : ∀ c ∈ gap, isGap c = true)
    (name rest : Text) :
    TakesName name (gap ++ (stringText name ++ ':' :: rest)) rest := by
  refine ⟨_, _, .of_gaps areGaps ?_, takesString_flatMap name (':' :: rest), .mark⟩
  rw [stringText, List.append_assoc, List.cons_append]
  exact .mark

section

variable
  (layout : Layout)
  (level : Nat)
  (name : Text)
  (value : Value)
  (items : List Value)
  (members : List (Text × Value))
  (rest : Text)

theorem render_array_append :
    (Value.array (value :: items)).render layout level ++ rest =
      '[' :: (layout.margin (level + 1) ++ (value.render layout (level + 1) ++
        (Value.renderItems layout (level + 1) items ++
          (layout.margin level ++ ']' :: rest)))) := by
  simp only [Value.render, List.append_assoc, List.cons_append, List.nil_append]

theorem render_object_append :
    (Value.object ((name, value) :: members)).render layout level ++ rest =
      '\x7b' :: (layout.margin (level + 1) ++ (stringText name ++ ':' :: ' ' ::
        (value.render layout (level + 1) ++
          (Value.renderMembers layout (level + 1) members ++
            (layout.margin level ++ '\x7d' :: rest))))) := by
  simp only [Value.render, List.append_assoc, List.cons_append, List.nil_append]

theorem renderItems_append :
    Value.renderItems layout level (value :: items) ++ rest =
      layout.separator level ++
        (value.render layout level ++ (Value.renderItems layout level items ++ rest)) := by
  simp only [Value.renderItems, List.append_assoc]

theorem renderMembers_append :
    Value.renderMembers layout level ((name, value) :: members) ++ rest =
      layout.separator level ++ (stringText name ++ ':' :: ' ' ::
        (value.render layout level ++ (Value.renderMembers layout level members ++ rest))) := by
  simp only [Value.renderMembers, List.append_assoc, List.cons_append]

end

mutual

/-- A value that is written says this value. -/
theorem says_render
    (layout : Layout)
    (level : Nat) :
    (value : Value) → value.isExact = true → (rest : Text) → Text.NoDigit rest →
      Says (.value value) (value.render layout level ++ rest) rest
  | .null, _, _, _ => .word (.head _) rfl
  | .boolean true, _, _, _ => .word (.tail _ (.head _)) rfl
  | .boolean false, _, _, _ => .word (.tail _ (.tail _ (.head _))) rfl
  | .integer _, _, _, noDigit => .integer rfl noDigit
  | .real _, exact, _, _ => by cases exact
  | .string chars, _, rest, _ => says_stringText chars rest
  | .array [], _, _, _ => .array (.noItem .mark)
  | .array (item :: items), exact, rest, _ => by
      obtain ⟨exactItem, exactItems⟩ := (Bool.and_eq_true _ _).mp exact
      have closing : Takes ']' (layout.margin level ++ ']' :: rest) rest :=
        .of_gaps (layout.isGap_of_mem_margin level) .mark
      have more := says_renderItems layout (level + 1) items exactItems _ _ closing
      have first := says_render layout (level + 1) item exactItem _ more.noDigit_moreItems
      have areGaps := layout.isGap_of_mem_margin (level + 1)
      rw [render_array_append]
      exact .array (.firstItem (first.of_gaps areGaps) more)
  | .object [], _, _, _ => .object (.noMember .mark)
  | .object ((name, value) :: members), exact, rest, _ => by
      obtain ⟨exactValue, exactMembers⟩ := (Bool.and_eq_true _ _).mp exact
      have closing : Takes '\x7d' (layout.margin level ++ '\x7d' :: rest) rest :=
        .of_gaps (layout.isGap_of_mem_margin level) .mark
      have more := says_renderMembers layout (level + 1) members exactMembers _ _ closing
      have first := says_render layout (level + 1) value exactValue _ more.noDigit_moreMembers
      have areGaps := layout.isGap_of_mem_margin (level + 1)
      have blank : isGap ' ' = true := rfl
      rw [render_object_append]
      exact .object (.firstMember (takesName_stringText areGaps name _) (.gap blank first) more)

theorem says_renderItems
    (layout : Layout)
    (level : Nat) :
    (items : List Value) → Value.areExact items = true → (closing rest : Text) →
      Takes ']' closing rest →
      Says (.moreItems items) (Value.renderItems layout level items ++ closing) rest
  | [], _, _, _, takes => .lastItem takes
  | item :: items, exact, closing, rest, takes => by
      obtain ⟨exactItem, exactItems⟩ := (Bool.and_eq_true _ _).mp exact
      obtain ⟨gap, isSeparator, areGaps⟩ := layout.exists_separator level
      have more := says_renderItems layout level items exactItems closing rest takes
      have next := says_render layout level item exactItem _ more.noDigit_moreItems
      rw [renderItems_append, isSeparator]
      exact .nextItem .mark (next.of_gaps areGaps) more

theorem says_renderMembers
    (layout : Layout)
    (level : Nat) :
    (members : List (Text × Value)) → Value.haveExact members = true → (closing rest : Text) →
      Takes '\x7d' closing rest →
      Says (.moreMembers members) (Value.renderMembers layout level members ++ closing) rest
  | [], _, _, _, takes => .lastMember takes
  | (name, value) :: members, exact, closing, rest, takes => by
      obtain ⟨exactValue, exactMembers⟩ := (Bool.and_eq_true _ _).mp exact
      obtain ⟨gap, isSeparator, areGaps⟩ := layout.exists_separator level
      have more := says_renderMembers layout level members exactMembers closing rest takes
      have next := says_render layout level value exactValue _ more.noDigit_moreMembers
      have blank : isGap ' ' = true := rfl
      rw [renderMembers_append, isSeparator]
      exact .nextMember .mark (takesName_stringText areGaps name _) (.gap blank next) more

end

/-- A value that is written on a line of its own is a document that says this value. -/
theorem isDocument_render
    (layout : Layout)
    {value : Value}
    (exact : value.isExact = true) :
    IsDocument (value.render layout 0 ++ ['\n']) value := by
  have noDigit : Text.NoDigit ['\n'] := by
    rintro c rest ⟨⟩
    rfl
  exact ⟨_, says_render layout 0 value exact _ noDigit, rfl⟩

end TestAudit.Json
