import TestAudit.Json.Printer
import TestAudit.Proofs.Text.WrittenNumber

namespace TestAudit

/-!
# Written values hold no escape character

A value is written with characters that can be seen and with line ends. The escape character
of a string that stands in it is written by its number, so it does not come into the text.
-/

/-- A text without the escape character of terminals. -/
def NoEscape (text : Text) : Prop :=
  '\x1b' ∉ text

namespace NoEscape

instance (text : Text) : Decidable (NoEscape text) :=
  inferInstanceAs (Decidable ('\x1b' ∉ text))

theorem cons
    {c : Char}
    {text : Text}
    (differs : c ≠ '\x1b')
    (noEscape : NoEscape text) :
    NoEscape (c :: text) :=
  List.not_mem_cons_of_ne_of_not_mem differs.symm noEscape

theorem append
    {first second : Text}
    (noFirst : NoEscape first)
    (noSecond : NoEscape second) :
    NoEscape (first ++ second) := by
  rw [NoEscape, List.mem_append, not_or]
  exact ⟨noFirst, noSecond⟩

theorem of_subset
    {part text : Text}
    (noEscape : NoEscape text)
    (isPart : part ⊆ text) :
    NoEscape part :=
  fun member => noEscape (isPart member)

theorem replicate
    {c : Char}
    (differs : c ≠ '\x1b')
    (count : Nat) :
    NoEscape (List.replicate count c) :=
  fun member => differs (List.eq_of_mem_replicate member).symm

theorem flatMap
    {write : Char → Text}
    (noEscape : ∀ c, NoEscape (write c))
    (text : Text) :
    NoEscape (text.flatMap write) := by
  intro member
  obtain ⟨c, _, written⟩ := List.mem_flatMap.mp member
  exact noEscape c written

/-! ## Numbers -/

theorem digitChar :
    ∀ digit < 16, Nat.digitChar digit ≠ '\x1b' := by
  decide

/-- The digits of a numeral are not the escape character. -/
theorem toDigits
    {base : Nat}
    (several : 1 < base)
    (known : base ≤ 16)
    (number : Nat) :
    NoEscape (Nat.toDigits base number) := by
  induction number using Nat.strongRecOn with
  | ind number inductionHypothesis =>
      obtain small | large := Nat.lt_or_ge number base
      · rw [Nat.toDigits_of_lt_base small]
        exact .cons (digitChar _ (by omega)) List.not_mem_nil
      · rw [Nat.toDigits_of_base_le several large]
        have last := Nat.mod_lt number (Nat.zero_lt_of_lt several)
        exact (inductionHypothesis _ (Nat.div_lt_self (by omega) several)).append
          (.cons (digitChar _ (by omega)) List.not_mem_nil)

theorem ofNat (number : Nat) : NoEscape (Text.ofNat number) :=
  toDigits (by decide) (by decide) number

theorem ofInt (number : Int) : NoEscape (Text.ofInt number) := by
  cases number with
  | ofNat number => exact ofNat number
  | negSucc number => exact .cons (by decide) (ofNat _)

theorem hexadecimal
    (width number : Nat) :
    NoEscape (Text.hexadecimal width number) :=
  (replicate (by decide) _).append (toDigits (by decide) (by decide) number)

theorem dropEndWhile
    {text : Text}
    (noEscape : NoEscape text)
    (belongs : Char → Bool) :
    NoEscape (text.dropEndWhile belongs) := by
  refine noEscape.of_subset fun c member => ?_
  have inside := (List.dropWhile_sublist belongs).subset (List.mem_reverse.mp member)
  exact List.mem_reverse.mp inside

theorem exponentText (leading : Int) : NoEscape (Binary64.exponentText leading) := by
  refine .append (.cons ?_ (replicate (by decide) _)) (ofNat _)
  split <;> decide

theorem layout
    {digits : Text}
    (noEscape : NoEscape digits)
    (leading : Int) :
    NoEscape (Binary64.layout digits leading) := by
  have start (count : Nat) : NoEscape (digits.take count) :=
    noEscape.of_subset (List.take_subset count digits)
  have behind (count : Nat) : NoEscape (digits.drop count) :=
    noEscape.of_subset (List.drop_subset count digits)
  unfold Binary64.layout
  split
  · split
    · exact ((by decide : NoEscape "0.").append (replicate (by decide) _)).append noEscape
    · refine ((start _).append (replicate (by decide) _)).append (.cons (by decide) ?_)
      split
      · decide
      · exact behind _
  · refine ((start 1).append ?_).append (.cons (by decide) (exponentText leading))
    split
    · decide
    · exact .cons (by decide) (behind 1)

theorem magnitudeText
    (significand : Nat)
    (exponent : Int) :
    NoEscape (Binary64.magnitudeText significand exponent) := by
  unfold Binary64.magnitudeText
  split
  · decide
  · exact layout ((ofNat _).dropEndWhile _) _

theorem toText
    {names : Binary64.SpecialNames}
    (noInfinity : NoEscape names.infinity)
    (noUndefined : NoEscape names.undefined)
    (number : Binary64) :
    NoEscape (number.toText names) := by
  have sign (negative : Bool) : NoEscape (if negative then ['-'] else []) := by
    cases negative <;> decide
  cases number with
  | finite negative significand exponent =>
      exact (sign negative).append (magnitudeText significand exponent)
  | infinite negative => exact (sign negative).append noInfinity
  | undefined => exact noUndefined

/-! ## Strings -/

theorem unitEscape (unit : Nat) : NoEscape (Json.unitEscape unit) :=
  (by decide : NoEscape "\\u").append (hexadecimal 4 unit)

theorem escapeChar (c : Char) : NoEscape (Json.escapeChar c) := by
  unfold Json.escapeChar
  iterate 7
    split
    · decide
  split
  next shown =>
    refine .cons ?_ List.not_mem_nil
    rintro rfl
    exact absurd shown (by decide)
  split
  · exact unitEscape _
  · exact (unitEscape _).append (unitEscape _)

theorem stringText (text : Text) : NoEscape (Json.stringText text) :=
  (.cons (by decide) (flatMap escapeChar text) : NoEscape ('\x22' :: _)).append (by decide)

theorem numbered (c : Char) : NoEscape (Text.numbered c) := by
  unfold Text.numbered
  split
  · exact (by decide : NoEscape "\\x").append (hexadecimal _ _)
  split
  · exact (by decide : NoEscape "\\u").append (hexadecimal _ _)
  · exact (by decide : NoEscape "\\U").append (hexadecimal _ _)

theorem quotedChar
    {delimiter : Char}
    (isQuote : delimiter ≠ '\x1b')
    (c : Char) :
    NoEscape (Text.quotedChar delimiter c) := by
  unfold Text.quotedChar
  split
  next marked =>
    refine .cons (by decide) (.cons ?_ List.not_mem_nil)
    simp only [Bool.or_eq_true, decide_eq_true_eq] at marked
    obtain rfl | rfl := marked
    · exact isQuote
    · decide
  iterate 3
    split
    · decide
  split
  next shown =>
    refine .cons ?_ List.not_mem_nil
    rintro rfl
    exact absurd shown (by decide)
  · exact numbered c

theorem quoted (text : Text) : NoEscape (Text.quoted text) := by
  have isQuote : Text.delimiterFor text ≠ '\x1b' := by
    unfold Text.delimiterFor
    split <;> decide
  exact (NoEscape.cons isQuote (flatMap (quotedChar isQuote) text)).append
    (.cons isQuote List.not_mem_nil)

/-! ## Values -/

theorem margin
    (layout : Json.Layout)
    (level : Nat) :
    NoEscape (layout.margin level) := by
  cases layout with
  | oneLine => exact List.not_mem_nil
  | indented => exact .cons (by decide) (replicate (by decide) _)

theorem separator
    (layout : Json.Layout)
    (level : Nat) :
    NoEscape (layout.separator level) := by
  cases layout with
  | oneLine => exact (by decide : NoEscape ", ")
  | indented => exact .cons (by decide) (.cons (by decide) (replicate (by decide) _))

/-- A member of an object is what stands before its colon, and its value. -/
theorem member
    {opening value : Text}
    (noneBefore : NoEscape opening)
    (noneInValue : NoEscape value) :
    NoEscape (opening ++ ':' :: ' ' :: value) :=
  noneBefore.append (.cons (by decide) (.cons (by decide) noneInValue))

section

variable (layout : Json.Layout)

mutual

theorem render (level : Nat) : (value : Json.Value) → NoEscape (value.render layout level)
  | .null => (by decide : NoEscape "null")
  | .boolean true => (by decide : NoEscape "true")
  | .boolean false => (by decide : NoEscape "false")
  | .array [] => (by decide : NoEscape "[]")
  | .object [] => (by decide : NoEscape "\x7b\x7d")
  | .integer number => ofInt number
  | .real number => toText (by decide) (by decide) number
  | .string text => stringText text
  | .array (item :: items) => by
      have opening : NoEscape ('[' :: layout.margin (level + 1)) :=
        .cons (by decide) (margin _ _)
      exact (((opening.append (render _ item)).append (renderItems _ items)).append
        (margin _ _)).append (by decide)
  | .object ((name, value) :: members) => by
      have opening : NoEscape ('\x7b' :: layout.margin (level + 1) ++ Json.stringText name) :=
        .cons (by decide) ((margin _ _).append (stringText name))
      exact (((member opening (render _ value)).append (renderMembers _ members)).append
        (margin _ _)).append (by decide)

theorem renderItems (level : Nat) :
    (items : List Json.Value) → NoEscape (Json.Value.renderItems layout level items)
  | [] => List.not_mem_nil
  | item :: items => by
      exact ((separator _ _).append (render _ item)).append (renderItems _ items)

theorem renderMembers (level : Nat) :
    (members : List (Text × Json.Value)) →
      NoEscape (Json.Value.renderMembers layout level members)
  | [] => List.not_mem_nil
  | (name, value) :: members => by
      have opening : NoEscape (layout.separator level ++ Json.stringText name) :=
        (separator _ _).append (stringText name)
      exact (member opening (render _ value)).append (renderMembers _ members)

end

end

mutual

theorem nested : (value : Json.Value) → NoEscape value.nested
  | .null => (by decide : NoEscape "None")
  | .boolean true => (by decide : NoEscape "True")
  | .boolean false => (by decide : NoEscape "False")
  | .array [] => (by decide : NoEscape "[]")
  | .object [] => (by decide : NoEscape "\x7b\x7d")
  | .integer number => ofInt number
  | .real number => toText (by decide) (by decide) number
  | .string text => quoted text
  | .array (item :: items) => by
      have first : NoEscape ('[' :: item.nested) := .cons (by decide) (nested item)
      exact (first.append (nestedItems items)).append (by decide)
  | .object ((name, value) :: members) => by
      have opening : NoEscape ('\x7b' :: Text.quoted name) := .cons (by decide) (quoted name)
      exact ((member opening (nested value)).append (nestedMembers members)).append (by decide)

theorem nestedItems :
    (items : List Json.Value) → NoEscape (Json.Value.nestedItems items)
  | [] => List.not_mem_nil
  | item :: items => by
      have first : NoEscape (',' :: ' ' :: item.nested) :=
        .cons (by decide) (.cons (by decide) (nested item))
      exact first.append (nestedItems items)

theorem nestedMembers :
    (members : List (Text × Json.Value)) → NoEscape (Json.Value.nestedMembers members)
  | [] => List.not_mem_nil
  | (name, value) :: members => by
      have opening : NoEscape (',' :: ' ' :: Text.quoted name) :=
        .cons (by decide) (.cons (by decide) (quoted name))
      exact (member opening (nested value)).append (nestedMembers members)

end

end NoEscape

end TestAudit
