import TestAudit.Json.Parser
import TestAudit.Json.Printer
import TestAudit.Proofs.Text.WrittenNumber

namespace TestAudit.Json

/-!
# The grammar of JSON

What a JSON text says, apart from any reader or writer: each rule takes a part of the
grammar from the front of a text and leaves the rest. A text says one value at most.
Numbers with a fraction or an exponent are left out, since nothing that is written here
holds any.
-/

/-! ## Tokens -/

/-- The blanks that may stand between tokens. -/
def isGap (c : Char) : Bool :=
  c == ' ' || c == '\t' || c == '\n' || c == '\r'

/-- A mark is taken, with the blanks before it. -/
inductive Takes (mark : Char) : Text → Text → Prop where
  | mark {rest : Text} :
      Takes mark (mark :: rest) rest
  | gap {c : Char} {text rest : Text} :
      isGap c = true →
      Takes mark text rest →
      Takes mark (c :: text) rest

/-- Four hexadecimal digits denote a code unit. -/
def IsUnit (first second third fourth : Char) (unit : Nat) : Prop :=
  ∃ a b c d,
    hexValue? first = some a ∧ hexValue? second = some b ∧
      hexValue? third = some c ∧ hexValue? fourth = some d ∧
      unit = ((a * 16 + b) * 16 + c) * 16 + d

/-- The characters of a string are taken, with the quote that ends it. -/
inductive TakesString : Text → Text → Text → Prop where
  | close {rest : Text} :
      TakesString [] ('\x22' :: rest) rest
  | plain {c : Char} {chars text rest : Text} :
      c ≠ '\x22' →
      c ≠ '\\' →
      0x20 ≤ c.toNat →
      TakesString chars text rest →
      TakesString (c :: chars) (c :: text) rest
  | letter {letter c : Char} {chars text rest : Text} :
      escapedChar? letter = some c →
      TakesString chars text rest →
      TakesString (c :: chars) ('\\' :: letter :: text) rest
  | unit {c first second third fourth : Char} {chars text rest : Text} :
      IsUnit first second third fourth c.toNat →
      TakesString chars text rest →
      TakesString (c :: chars) ('\\' :: 'u' :: first :: second :: third :: fourth :: text) rest
  | pair {a b c d e f g h : Char} {high low : Nat} {chars text rest : Text} :
      IsUnit a b c d high →
      IsUnit e f g h low →
      isHighSurrogate high = true →
      isLowSurrogate low = true →
      TakesString chars text rest →
      TakesString (charOfPair high low :: chars)
        ('\\' :: 'u' :: a :: b :: c :: d :: '\\' :: 'u' :: e :: f :: g :: h :: text) rest

/-- The name of a member is taken, with the colon behind it. -/
def TakesName (name text rest : Text) : Prop :=
  ∃ quoted behind,
    Takes '\x22' text quoted ∧ TakesString name quoted behind ∧ Takes ':' behind rest

/-- The words that stand for values. -/
def plainWords : List (Text × Value) :=
  [("null", .null), ("true", .boolean true), ("false", .boolean false)]

/-! ## Values -/

/-- A part of the grammar, with what it says. -/
inductive Phrase where
  | value (value : Value)
  /-- What stands behind the opening bracket of an array, up to the closing one. -/
  | items (items : List Value)
  /-- What stands behind an item, up to the closing bracket. -/
  | moreItems (items : List Value)
  /-- What stands behind the opening brace of an object, up to the closing one. -/
  | members (members : List (Text × Value))
  /-- What stands behind a member, up to the closing brace. -/
  | moreMembers (members : List (Text × Value))

/-- A part of the grammar is taken from a text, and a rest is left. -/
inductive Says : Phrase → Text → Text → Prop where
  | gap {c : Char} {value : Value} {text rest : Text} :
      isGap c = true →
      Says (.value value) text rest →
      Says (.value value) (c :: text) rest
  | word {word : Text} {value : Value} {text rest : Text} :
      (word, value) ∈ plainWords →
      text = word ++ rest →
      Says (.value value) text rest
  | integer {number : Int} {text rest : Text} :
      text = Text.ofInt number ++ rest →
      Text.NoDigit rest →
      Says (.value (.integer number)) text rest
  | string {chars text rest : Text} :
      TakesString chars text rest →
      Says (.value (.string chars)) ('\x22' :: text) rest
  | array {items : List Value} {text rest : Text} :
      Says (.items items) text rest →
      Says (.value (.array items)) ('[' :: text) rest
  | object {members : List (Text × Value)} {text rest : Text} :
      Says (.members members) text rest →
      Says (.value (.object members)) ('\x7b' :: text) rest
  | noItem {text rest : Text} :
      Takes ']' text rest →
      Says (.items []) text rest
  | firstItem {item : Value} {items : List Value} {text behind rest : Text} :
      Says (.value item) text behind →
      Says (.moreItems items) behind rest →
      Says (.items (item :: items)) text rest
  | lastItem {text rest : Text} :
      Takes ']' text rest →
      Says (.moreItems []) text rest
  | nextItem {item : Value} {items : List Value} {text next behind rest : Text} :
      Takes ',' text next →
      Says (.value item) next behind →
      Says (.moreItems items) behind rest →
      Says (.moreItems (item :: items)) text rest
  | noMember {text rest : Text} :
      Takes '\x7d' text rest →
      Says (.members []) text rest
  | firstMember {name : Text} {value : Value} {members : List (Text × Value)}
      {text named behind rest : Text} :
      TakesName name text named →
      Says (.value value) named behind →
      Says (.moreMembers members) behind rest →
      Says (.members ((name, value) :: members)) text rest
  | lastMember {text rest : Text} :
      Takes '\x7d' text rest →
      Says (.moreMembers []) text rest
  | nextMember {name : Text} {value : Value} {members : List (Text × Value)}
      {text next named behind rest : Text} :
      Takes ',' text next →
      TakesName name next named →
      Says (.value value) named behind →
      Says (.moreMembers members) behind rest →
      Says (.moreMembers ((name, value) :: members)) text rest

/-- A text says one value, with nothing but blanks around it. -/
def IsDocument (text : Text) (value : Value) : Prop :=
  ∃ rest, Says (.value value) text rest ∧ rest.all isGap = true

/-! ## One reading at most -/

theorem Takes.unique
    {first second : Char}
    {text rest behind : Text}
    (firstSolid : isGap first = false)
    (secondSolid : isGap second = false)
    (takesFirst : Takes first text rest)
    (takesSecond : Takes second text behind) :
    first = second ∧ rest = behind := by
  induction takesFirst with
  | mark =>
      cases takesSecond with
      | mark => exact ⟨rfl, rfl⟩
      | gap isGap _ =>
          rw [isGap] at firstSolid
          cases firstSolid
  | gap isGap _ inductionHypothesis =>
      cases takesSecond with
      | mark =>
          rw [isGap] at secondSolid
          cases secondSolid
      | gap _ takesSecond => exact inductionHypothesis takesSecond

theorem IsUnit.unique
    {first second third fourth : Char}
    {unit other : Nat}
    (isUnit : IsUnit first second third fourth unit)
    (isOther : IsUnit first second third fourth other) :
    unit = other := by
  obtain ⟨a, b, c, d, isA, isB, isC, isD, rfl⟩ := isUnit
  obtain ⟨a', b', c', d', isA', isB', isC', isD', rfl⟩ := isOther
  rw [isA] at isA'
  rw [isB] at isB'
  rw [isC] at isC'
  rw [isD] at isD'
  cases isA'
  cases isB'
  cases isC'
  cases isD'
  rfl

/-- Characters have numbers below and beyond those that make up pairs. -/
theorem toNat_bounds
    (c : Char) :
    c.toNat < 0xd800 ∨ 0xdfff < c.toNat ∧ c.toNat < 0x110000 :=
  c.valid

/-- The number of a character is no half of a pair. -/
theorem toNat_not_surrogate
    (c : Char) :
    isHighSurrogate c.toNat = false ∧ isLowSurrogate c.toNat = false := by
  have bounds := toNat_bounds c
  simp only [isHighSurrogate, isLowSurrogate, Bool.and_eq_false_iff, decide_eq_false_iff_not]
  omega

theorem TakesString.unique
    {chars others text rest behind : Text}
    (takes : TakesString chars text rest)
    (takesOthers : TakesString others text behind) :
    chars = others ∧ rest = behind := by
  induction takes generalizing others with
  | close =>
      cases takesOthers with
      | close => exact ⟨rfl, rfl⟩
      | plain notQuote => exact (notQuote rfl).elim
  | plain notQuote notBackslash _ _ inductionHypothesis =>
      cases takesOthers with
      | close => exact (notQuote rfl).elim
      | plain _ _ _ takesOthers =>
          obtain ⟨rfl, rfl⟩ := inductionHypothesis takesOthers
          exact ⟨rfl, rfl⟩
      | letter | unit | pair => exact (notBackslash rfl).elim
  | letter isLetter _ inductionHypothesis =>
      cases takesOthers with
      | plain _ notBackslash => exact (notBackslash rfl).elim
      | letter isOther takesOthers =>
          obtain ⟨rfl, rfl⟩ := inductionHypothesis takesOthers
          rw [isLetter] at isOther
          cases isOther
          exact ⟨rfl, rfl⟩
      | unit | pair => cases isLetter
  | unit isUnit _ inductionHypothesis =>
      cases takesOthers with
      | plain _ notBackslash => exact (notBackslash rfl).elim
      | letter isOther => cases isOther
      | unit isOther takesOthers =>
          obtain ⟨rfl, rfl⟩ := inductionHypothesis takesOthers
          rw [Char.toNat_inj.mp (isUnit.unique isOther)]
          exact ⟨rfl, rfl⟩
      | pair isHigh _ high =>
          rw [← isUnit.unique isHigh, (toNat_not_surrogate _).1] at high
          cases high
  | pair isHigh isLow high _ _ inductionHypothesis =>
      cases takesOthers with
      | plain _ notBackslash => exact (notBackslash rfl).elim
      | letter isOther => cases isOther
      | unit isUnit =>
          rw [isHigh.unique isUnit, (toNat_not_surrogate _).1] at high
          cases high
      | pair isOtherHigh isOtherLow _ _ takesOthers =>
          obtain ⟨rfl, rfl⟩ := inductionHypothesis takesOthers
          rw [isHigh.unique isOtherHigh, isLow.unique isOtherLow]
          exact ⟨rfl, rfl⟩

/-- The characters that words and numerals begin with. -/
def beginsScalar (c : Char) : Bool :=
  c == 'n' || c == 't' || c == 'f' || c == '-' || c.isDigit

theorem beginsScalar_of_isGap
    {c : Char}
    (gap : isGap c = true) :
    beginsScalar c = false := by
  simp only [isGap, Bool.or_eq_true, beq_iff_eq] at gap
  rcases gap with ((rfl | rfl) | rfl) | rfl <;> decide

theorem head_of_word
    {word rest text : Text}
    {value : Value}
    {c : Char}
    (isWord : (word, value) ∈ plainWords)
    (shape : c :: text = word ++ rest) :
    c = 'n' ∨ c = 't' ∨ c = 'f' := by
  simp only [plainWords, List.mem_cons, Prod.mk.injEq, List.not_mem_nil, or_false] at isWord
  rcases isWord with ⟨rfl, _⟩ | ⟨rfl, _⟩ | ⟨rfl, _⟩ <;> cases shape <;> decide

theorem beginsScalar_of_word
    {word rest text : Text}
    {value : Value}
    {c : Char}
    (isWord : (word, value) ∈ plainWords)
    (shape : c :: text = word ++ rest) :
    beginsScalar c = true := by
  rcases head_of_word isWord shape with rfl | rfl | rfl <;> decide

theorem beginsScalar_of_integer
    {number : Int}
    {rest text : Text}
    {c : Char}
    (shape : c :: text = Text.ofInt number ++ rest) :
    beginsScalar c = true := by
  obtain ⟨first, others, isNumeral, begins⟩ := Text.exists_cons_ofInt number
  rw [isNumeral] at shape
  obtain ⟨rfl, _⟩ := List.cons.inj shape
  rcases begins with rfl | isDigit
  · decide
  · simp [beginsScalar, isDigit]

theorem word_append_inj
    {word other rest behind : Text}
    {value meant : Value}
    (isWord : (word, value) ∈ plainWords)
    (isOther : (other, meant) ∈ plainWords)
    (same : word ++ rest = other ++ behind) :
    value = meant ∧ rest = behind := by
  simp only [plainWords, List.mem_cons, Prod.mk.injEq, List.not_mem_nil, or_false] at isWord isOther
  rcases isWord with ⟨rfl, rfl⟩ | ⟨rfl, rfl⟩ | ⟨rfl, rfl⟩ <;>
    rcases isOther with ⟨rfl, rfl⟩ | ⟨rfl, rfl⟩ | ⟨rfl, rfl⟩ <;>
    cases same <;>
    exact ⟨rfl, rfl⟩

theorem word_append_ne_integer
    {word rest behind : Text}
    {value : Value}
    {number : Int}
    (isWord : (word, value) ∈ plainWords) :
    word ++ rest ≠ Text.ofInt number ++ behind := by
  intro same
  obtain ⟨c, others, isNumeral, begins⟩ := Text.exists_cons_ofInt number
  rw [isNumeral] at same
  rcases head_of_word isWord same.symm with rfl | rfl | rfl <;> revert begins <;> decide

namespace Says

variable {value : Value} {text rest : Text} {c : Char}

theorem of_gap
    (said : Says (.value value) (c :: text) rest)
    (gap : isGap c = true) :
    Says (.value value) text rest := by
  have noScalar := beginsScalar_of_isGap gap
  cases said with
  | gap _ said => exact said
  | word isWord shape =>
      rw [beginsScalar_of_word isWord shape] at noScalar
      cases noScalar
  | integer shape _ =>
      rw [beginsScalar_of_integer shape] at noScalar
      cases noScalar
  | string | array | object => cases gap

theorem of_quote
    (said : Says (.value value) ('\x22' :: text) rest) :
    ∃ chars, value = .string chars ∧ TakesString chars text rest := by
  cases said with
  | gap gap _ => cases gap
  | word isWord shape => cases beginsScalar_of_word isWord shape
  | integer shape _ => cases beginsScalar_of_integer shape
  | string takes => exact ⟨_, rfl, takes⟩

theorem of_bracket
    (said : Says (.value value) ('[' :: text) rest) :
    ∃ items, value = .array items ∧ Says (.items items) text rest := by
  cases said with
  | gap gap _ => cases gap
  | word isWord shape => cases beginsScalar_of_word isWord shape
  | integer shape _ => cases beginsScalar_of_integer shape
  | array said => exact ⟨_, rfl, said⟩

theorem of_brace
    (said : Says (.value value) ('\x7b' :: text) rest) :
    ∃ members, value = .object members ∧ Says (.members members) text rest := by
  cases said with
  | gap gap _ => cases gap
  | word isWord shape => cases beginsScalar_of_word isWord shape
  | integer shape _ => cases beginsScalar_of_integer shape
  | object said => exact ⟨_, rfl, said⟩

theorem of_word
    {word behind : Text}
    {meant : Value}
    (said : Says (.value value) text rest)
    (isWord : (word, meant) ∈ plainWords)
    (shape : text = word ++ behind) :
    meant = value ∧ behind = rest := by
  cases said with
  | gap gap _ =>
      have noScalar := beginsScalar_of_isGap gap
      rw [beginsScalar_of_word isWord shape] at noScalar
      cases noScalar
  | word isOther otherShape => exact word_append_inj isWord isOther (shape.symm.trans otherShape)
  | integer otherShape _ =>
      exact (word_append_ne_integer isWord (shape.symm.trans otherShape)).elim
  | string | array | object => cases beginsScalar_of_word isWord shape

theorem of_integer
    {number : Int}
    {behind : Text}
    (said : Says (.value value) text rest)
    (shape : text = Text.ofInt number ++ behind)
    (noDigit : Text.NoDigit behind) :
    .integer number = value ∧ behind = rest := by
  cases said with
  | gap gap _ =>
      have noScalar := beginsScalar_of_isGap gap
      rw [beginsScalar_of_integer shape] at noScalar
      cases noScalar
  | word isWord otherShape =>
      exact (word_append_ne_integer isWord (otherShape.symm.trans shape)).elim
  | integer otherShape noFigure =>
      obtain ⟨rfl, rfl⟩ := Text.ofInt_append_inj noDigit noFigure (shape.symm.trans otherShape)
      exact ⟨rfl, rfl⟩
  | string | array | object => cases beginsScalar_of_integer shape

/-- No value begins where a closing bracket or brace stands. -/
theorem not_of_takes
    {mark : Char}
    {behind : Text}
    (isClosing : mark = ']' ∨ mark = '\x7d')
    (takes : Takes mark text behind) :
    ¬ Says (.value value) text rest := by
  intro said
  induction takes with
  | mark =>
      cases said with
      | gap gap _ => rcases isClosing with rfl | rfl <;> cases gap
      | word isWord shape =>
          have begins := beginsScalar_of_word isWord shape
          rcases isClosing with rfl | rfl <;> cases begins
      | integer shape _ =>
          have begins := beginsScalar_of_integer shape
          rcases isClosing with rfl | rfl <;> cases begins
      | string | array | object => rcases isClosing with closing | closing <;> cases closing
  | gap gap _ inductionHypothesis => exact inductionHypothesis (said.of_gap gap)

end Says

theorem TakesName.unique
    {name other text rest behind : Text}
    (takes : TakesName name text rest)
    (takesOther : TakesName other text behind) :
    name = other ∧ rest = behind := by
  obtain ⟨_, _, quote, isName, colon⟩ := takes
  obtain ⟨_, _, otherQuote, isOther, otherColon⟩ := takesOther
  obtain ⟨_, rfl⟩ := quote.unique rfl rfl otherQuote
  obtain ⟨rfl, rfl⟩ := isName.unique isOther
  obtain ⟨_, rfl⟩ := colon.unique rfl rfl otherColon
  exact ⟨rfl, rfl⟩

/-- What else the part of the grammar could say is what it says. -/
def Phrase.IsOnly (text rest : Text) : Phrase → Prop
  | .value meant =>
      ∀ other behind, Says (.value other) text behind → meant = other ∧ rest = behind
  | .items listed =>
      ∀ others behind, Says (.items others) text behind → listed = others ∧ rest = behind
  | .moreItems listed =>
      ∀ others behind, Says (.moreItems others) text behind → listed = others ∧ rest = behind
  | .members named =>
      ∀ others behind, Says (.members others) text behind → named = others ∧ rest = behind
  | .moreMembers named =>
      ∀ others behind, Says (.moreMembers others) text behind → named = others ∧ rest = behind

/-- A part of the grammar is taken from a text in one way at most. -/
theorem Says.isOnly
    {phrase : Phrase}
    {text rest : Text}
    (said : Says phrase text rest) :
    phrase.IsOnly text rest := by
  induction said with
  | gap gap _ inductionHypothesis =>
      exact fun other behind saysOther => inductionHypothesis other behind (saysOther.of_gap gap)
  | word isWord shape => exact fun _ _ saysOther => saysOther.of_word isWord shape
  | integer shape noDigit => exact fun _ _ saysOther => saysOther.of_integer shape noDigit
  | string takes =>
      intro other behind saysOther
      obtain ⟨chars, rfl, takesOther⟩ := saysOther.of_quote
      obtain ⟨rfl, rfl⟩ := takes.unique takesOther
      exact ⟨rfl, rfl⟩
  | array _ inductionHypothesis =>
      intro other behind saysOther
      obtain ⟨items, rfl, saysItems⟩ := saysOther.of_bracket
      obtain ⟨rfl, rfl⟩ := inductionHypothesis items behind saysItems
      exact ⟨rfl, rfl⟩
  | object _ inductionHypothesis =>
      intro other behind saysOther
      obtain ⟨members, rfl, saysMembers⟩ := saysOther.of_brace
      obtain ⟨rfl, rfl⟩ := inductionHypothesis members behind saysMembers
      exact ⟨rfl, rfl⟩
  | noItem takes =>
      intro others behind saysOther
      cases saysOther with
      | noItem takesOther => exact ⟨rfl, (takes.unique rfl rfl takesOther).2⟩
      | firstItem saysItem _ => exact (Says.not_of_takes (Or.inl rfl) takes saysItem).elim
  | firstItem saysItem _ itemHypothesis restHypothesis =>
      intro others behind saysOther
      cases saysOther with
      | noItem takes => exact (Says.not_of_takes (Or.inl rfl) takes saysItem).elim
      | firstItem saysOtherItem saysOthers =>
          obtain ⟨rfl, rfl⟩ := itemHypothesis _ _ saysOtherItem
          obtain ⟨rfl, rfl⟩ := restHypothesis _ _ saysOthers
          exact ⟨rfl, rfl⟩
  | lastItem takes =>
      intro others behind saysOther
      cases saysOther with
      | lastItem takesOther => exact ⟨rfl, (takes.unique rfl rfl takesOther).2⟩
      | nextItem takesComma => cases (takes.unique rfl rfl takesComma).1
  | nextItem takes _ _ itemHypothesis restHypothesis =>
      intro others behind saysOther
      cases saysOther with
      | lastItem takesOther => cases (takes.unique rfl rfl takesOther).1
      | nextItem takesOther saysOtherItem saysOthers =>
          obtain ⟨_, rfl⟩ := takes.unique rfl rfl takesOther
          obtain ⟨rfl, rfl⟩ := itemHypothesis _ _ saysOtherItem
          obtain ⟨rfl, rfl⟩ := restHypothesis _ _ saysOthers
          exact ⟨rfl, rfl⟩
  | noMember takes =>
      intro others behind saysOther
      cases saysOther with
      | noMember takesOther => exact ⟨rfl, (takes.unique rfl rfl takesOther).2⟩
      | firstMember takesName =>
          obtain ⟨_, _, quote, _⟩ := takesName
          cases (takes.unique rfl rfl quote).1
  | firstMember takesName _ _ valueHypothesis restHypothesis =>
      intro others behind saysOther
      cases saysOther with
      | noMember takes =>
          obtain ⟨_, _, quote, _⟩ := takesName
          cases (takes.unique rfl rfl quote).1
      | firstMember takesOther saysOtherValue saysOthers =>
          obtain ⟨rfl, rfl⟩ := takesName.unique takesOther
          obtain ⟨rfl, rfl⟩ := valueHypothesis _ _ saysOtherValue
          obtain ⟨rfl, rfl⟩ := restHypothesis _ _ saysOthers
          exact ⟨rfl, rfl⟩
  | lastMember takes =>
      intro others behind saysOther
      cases saysOther with
      | lastMember takesOther => exact ⟨rfl, (takes.unique rfl rfl takesOther).2⟩
      | nextMember takesComma => cases (takes.unique rfl rfl takesComma).1
  | nextMember takes takesName _ _ valueHypothesis restHypothesis =>
      intro others behind saysOther
      cases saysOther with
      | lastMember takesOther => cases (takes.unique rfl rfl takesOther).1
      | nextMember takesComma takesOther saysOtherValue saysOthers =>
          obtain ⟨_, rfl⟩ := takes.unique rfl rfl takesComma
          obtain ⟨rfl, rfl⟩ := takesName.unique takesOther
          obtain ⟨rfl, rfl⟩ := valueHypothesis _ _ saysOtherValue
          obtain ⟨rfl, rfl⟩ := restHypothesis _ _ saysOthers
          exact ⟨rfl, rfl⟩

/-- A text says one value at most. -/
theorem IsDocument.unique
    {text : Text}
    {value other : Value}
    (isDocument : IsDocument text value)
    (isOther : IsDocument text other) :
    value = other := by
  obtain ⟨_, said, _⟩ := isDocument
  obtain ⟨_, saysOther, _⟩ := isOther
  exact (said.isOnly other _ saysOther).1

end TestAudit.Json
