import TestAudit.Criteria.Config
import TestAudit.Proofs.Text.CharacterClass
import TestAudit.Proofs.Text.LineEnd
import TestAudit.Proofs.Text.Trim

namespace TestAudit.Config

/-!
# Written lines of configurations

A value is written between quotes or, where trimming and unquoting would leave it alone,
as it is. A line that is made of keys and written values is read as what it was made of,
whatever characters the value has: they stand behind the mark that tells the kind of line.
-/

/-- A key is a word character with word characters and hyphens behind it. -/
def IsKey : Text → Prop
  | first :: rest => Text.isWord first = true ∧ ∀ c ∈ rest, isKeyChar c = true
  | [] => False

instance IsKey.decidable : (name : Text) → Decidable (IsKey name)
  | _ :: rest => @instDecidableAnd _ _ _ (List.decidableBAll _ rest)
  | [] => inferInstanceAs (Decidable False)

/-- The characters between which a value may be written. -/
def IsQuote (c : Char) : Prop :=
  c = '\x22' ∨ c = '\x27'

/-- How a value is written. -/
inductive Spelling (value : Text) : Text → Prop where
  /-- Between two quotes, whatever the value is. -/
  | quoted {quote : Char} : IsQuote quote → Spelling value (quote :: value ++ [quote])
  /-- As it is: it has no blanks at its ends, and is not between quotes of its own. -/
  | bare :
      value ≠ [] →
      value.trim = value →
      (∀ quote inner, IsQuote quote → value ≠ quote :: inner ++ [quote]) →
      Spelling value value

variable {name value written : Text}

/-! ## Values -/

theorem isBlank_of_isQuote
    {c : Char}
    (isQuote : IsQuote c) :
    Text.isBlank c = false := by
  rcases isQuote with rfl | rfl <;> decide

theorem isQuoted_iff
    {text : Text} :
    isQuoted text = true ↔ ∃ quote inner, IsQuote quote ∧ text = quote :: inner ++ [quote] := by
  constructor
  · intro quoted
    unfold isQuoted at quoted
    split at quoted
    next first second rest =>
      simp only [Bool.and_eq_true, Bool.or_eq_true, decide_eq_true_eq] at quoted
      obtain ⟨isQuote, last⟩ := quoted
      obtain ⟨front, shape⟩ := List.getLast?_eq_some_iff.mp last
      cases front with
      | nil => cases shape
      | cons c inner =>
          obtain ⟨rfl, behind⟩ := List.cons.inj shape
          exact ⟨first, inner, isQuote.symm, by rw [shape]⟩
    next => cases quoted
  · rintro ⟨quote, inner, isQuote, rfl⟩
    have last : (quote :: inner ++ [quote]).getLast? = some quote := List.getLast?_concat
    have isFirst : (decide (quote = '\x27') || decide (quote = '\x22')) = true := by
      simpa using isQuote.symm
    cases inner with
    | nil => simpa [isQuoted] using isFirst
    | cons c others =>
        exact Bool.and_eq_true_iff.mpr ⟨isFirst, decide_eq_true last⟩

namespace Spelling

theorem of_not_isQuoted
    (notEmpty : value ≠ [])
    (trimmed : value.trim = value)
    (notQuoted : isQuoted value = false) :
    Spelling value value := by
  refine .bare notEmpty trimmed fun quote inner isQuote shape => ?_
  rw [isQuoted_iff.mpr ⟨quote, inner, isQuote, shape⟩] at notQuoted
  cases notQuoted

theorem tight
    (spelling : Spelling value written) :
    Text.Tight written := by
  cases spelling with
  | @quoted quote isQuote =>
      have notBlank := isBlank_of_isQuote isQuote
      exact ⟨⟨quote, _, rfl, notBlank⟩, ⟨quote :: value, quote, rfl, notBlank⟩⟩
  | bare notEmpty trimmed _ => exact .of_trim_eq notEmpty trimmed

/-- What is written behind blanks is read as the value. -/
theorem unquote_append
    (spelling : Spelling value written)
    {blanks : Text}
    (areBlank : ∀ c ∈ blanks, Text.isBlank c = true) :
    unquote (blanks ++ written) = value := by
  rw [unquote, spelling.tight.trim_append areBlank]
  cases spelling with
  | @quoted quote isQuote =>
      rw [if_pos (isQuoted_iff.mpr ⟨quote, value, isQuote, rfl⟩)]
      simp
  | bare notEmpty trimmed notWrapped =>
      refine if_neg fun quoted => ?_
      obtain ⟨quote, inner, isQuote, shape⟩ := isQuoted_iff.mp quoted
      exact notWrapped quote inner isQuote shape

theorem onOneLine
    (spelling : Spelling value written)
    (isLine : Text.OnOneLine value) :
    Text.OnOneLine written := by
  cases spelling with
  | @quoted quote isQuote =>
      have quoteStays := Text.isLineEnd_of_not_isBlank (isBlank_of_isQuote isQuote)
      refine List.forall_mem_append.mpr ⟨List.forall_mem_cons.mpr ⟨quoteStays, isLine⟩, ?_⟩
      exact List.forall_mem_singleton.mpr quoteStays
  | bare _ _ _ => exact isLine

end Spelling

/-! ## Keys -/

theorem isBlank_of_isKeyChar
    {c : Char}
    (isKeyChar : isKeyChar c = true) :
    Text.isBlank c = false := by
  rcases Bool.or_eq_true _ _ ▸ isKeyChar with isWord | isHyphen
  · exact Text.isBlank_of_isWord isWord
  · rw [eq_of_beq isHyphen]
    decide

namespace IsKey

theorem shape
    (isKey : IsKey name) :
    ∃ first rest,
      name = first :: rest ∧ Text.isWord first = true ∧ ∀ c ∈ rest, isKeyChar c = true := by
  cases name with
  | nil => exact isKey.elim
  | cons first rest => exact ⟨first, rest, rfl, isKey⟩

theorem onOneLine
    (isKey : IsKey name) :
    Text.OnOneLine name := by
  obtain ⟨first, rest, rfl, isWord, areKeyChars⟩ := isKey.shape
  refine List.forall_mem_cons.mpr ⟨?_, fun c member => ?_⟩
  · exact Text.isLineEnd_of_not_isBlank (Text.isBlank_of_isWord isWord)
  · exact Text.isLineEnd_of_not_isBlank (isBlank_of_isKeyChar (areKeyChars c member))

/-- A key goes up to its colon. -/
theorem keyAtStart?_append
    (isKey : IsKey name)
    (behind : Text) :
    keyAtStart? (name ++ ':' :: behind) = some (name, behind) := by
  obtain ⟨first, rest, rfl, isWord, areKeyChars⟩ := isKey.shape
  have colon : ¬ isKeyChar ':' = true := by decide
  rw [List.cons_append, keyAtStart?, if_pos isWord,
    List.dropWhile_append_of_pos areKeyChars, List.dropWhile_cons_of_neg colon,
    List.takeWhile_append_of_pos areKeyChars, List.takeWhile_cons_of_neg colon,
    List.append_nil]
  rfl

/-- A key begins with none of the marks of other lines. -/
theorem head
    (isKey : IsKey name) :
    ∃ first rest,
      name = first :: rest ∧ Text.isBlank first = false ∧
        first ≠ '#' ∧ first ≠ ' ' ∧ first ≠ '\t' ∧ first ≠ '-' := by
  obtain ⟨first, rest, rfl, isWord, _⟩ := isKey.shape
  have other {mark : Char} (noWord : Text.isWord mark = false) : first ≠ mark := by
    rintro rfl
    rw [noWord] at isWord
    cases isWord
  exact ⟨first, rest, rfl, Text.isBlank_of_isWord isWord, other (by decide), other (by decide),
    other (by decide), other (by decide)⟩

end IsKey

/-! ## Keys at the margin -/

theorem keyAtStart?_eq_some_iff
    {text behind : Text} :
    keyAtStart? text = some (name, behind) ↔ IsKey name ∧ text = name ++ ':' :: behind := by
  constructor
  · intro found
    unfold keyAtStart? at found
    split at found
    · cases found
    next first rest =>
      split at found
      next isWord =>
        split at found
        next afterKey =>
          cases found
          refine ⟨⟨isWord, List.all_eq_true.mp List.all_takeWhile⟩, ?_⟩
          rw [List.cons_append, ← afterKey, List.takeWhile_append_dropWhile]
        next => cases found
      next => cases found
  · rintro ⟨isKey, rfl⟩
    exact isKey.keyAtStart?_append behind

/-- A line that begins with a key and its colon. -/
def IsKeyLine (name line : Text) : Prop :=
  IsKey name ∧ ∃ behind, line = name ++ ':' :: behind

/-- A line that says nothing: it is blank, or a comment. -/
def saysNothing (line : Text) : Bool :=
  line.trim = [] || line.trim.startsWith "#"

namespace IsKeyLine

variable {line : Text}

theorem shape
    (isKeyLine : IsKeyLine name line) :
    ∃ first rest,
      line = first :: rest ∧ line.trim = first :: Text.trimEnd rest ∧
        first ≠ '#' ∧ first ≠ ' ' ∧ first ≠ '\t' ∧ first ≠ '-' := by
  obtain ⟨isKey, behind, rfl⟩ := isKeyLine
  obtain ⟨first, rest, rfl, notBlank, others⟩ := isKey.head
  refine ⟨first, rest ++ ':' :: behind, rfl, ?_, others⟩
  rw [Text.trim, List.cons_append, Text.trimStart, List.dropWhile_cons_of_neg (by simp [notBlank])]
  exact Text.dropEndWhile_append_cons [] _ notBlank

theorem saysNothing
    (isKeyLine : IsKeyLine name line) :
    saysNothing line = false := by
  obtain ⟨first, rest, _, trimmed, notHash, _⟩ := isKeyLine.shape
  rw [Config.saysNothing, trimmed]
  simp [Text.startsWith, List.isPrefixOf, Ne.symm notHash]

theorem isInner
    (isKeyLine : IsKeyLine name line) :
    isInner line = false := by
  obtain ⟨first, rest, rfl, _, _, notBlank, notTab, notHyphen⟩ := isKeyLine.shape
  simp [Config.isInner, notBlank, notTab, notHyphen]

/-- Blanks at the end of a line are behind the colon of its key. -/
theorem trimEnd_iff :
    IsKeyLine name line.trimEnd ↔ IsKeyLine name line := by
  refine and_congr_right fun _ => ⟨?_, ?_⟩
  · rintro ⟨behind, trimmed⟩
    obtain ⟨blanks, shape, _⟩ := Text.eq_dropEndWhile_append Text.isBlank line
    change line = line.trimEnd ++ blanks at shape
    refine ⟨behind ++ blanks, ?_⟩
    rw [trimmed, List.append_assoc, List.cons_append] at shape
    exact shape
  · rintro ⟨behind, rfl⟩
    have colon : Text.isBlank ':' = false := by decide
    exact ⟨Text.trimEnd behind, Text.dropEndWhile_append_cons name behind colon⟩

end IsKeyLine

/-! ## What lines are read as -/

/-- What a line of a section shows of itself. -/
def Line.shownInSection? : Line → Option Text
  | .item _ shown | .nested _ _ shown | .deep shown => some shown
  | .silent | .key _ _ | .broken _ => none

/-- What a line is read as, told by its beginning. -/
inductive ReadAs (line : Text) : Line → Prop where
  | silent : saysNothing line = true → ReadAs line .silent
  | key {name value : Text} : IsKeyLine name line → ReadAs line (.key name value)
  | broken :
      saysNothing line = false →
      isInner line = false →
      (∀ name, ¬ IsKeyLine name line) →
      ReadAs line (.broken line.trim)
  | inSection {read : Line} :
      saysNothing line = false →
      isInner line = true →
      read.shownInSection? = some line.trim →
      ReadAs line read

section Reading

variable {line : Text}

theorem shownInSection?_indentedLine
    (line shown : Text) :
    (indentedLine line shown).shownInSection? = some shown := by
  unfold indentedLine
  dsimp only
  split
  · rfl
  · split <;> rfl

/-- Whether a line that says anything is indented is seen without the blanks at its end. -/
theorem isInner_trimEnd
    (speaks : saysNothing line = false) :
    isInner line.trimEnd = isInner line := by
  obtain ⟨dropped, shape, _⟩ := Text.eq_dropEndWhile_append Text.isBlank line
  change line = line.trimEnd ++ dropped at shape
  cases kept : line.trimEnd with
  | nil =>
      rw [saysNothing, ← Text.trim_trimEnd, kept] at speaks
      cases speaks
  | cons c rest =>
      rw [kept] at shape
      rw [shape]
      rfl

theorem readAs_classify
    (line : Text) :
    ReadAs line (classify line) := by
  rw [classify, Text.trim_trimEnd]
  change ReadAs line (if saysNothing line = true then _ else _)
  cases speaks : saysNothing line with
  | true => exact .silent speaks
  | false =>
      rw [if_neg Bool.false_ne_true, isInner_trimEnd speaks]
      cases inner : isInner line with
      | true => exact .inSection speaks inner (shownInSection?_indentedLine _ _)
      | false =>
          rw [if_neg Bool.false_ne_true]
          split
          next name value found =>
            exact .key (IsKeyLine.trimEnd_iff.mp
              ((keyAtStart?_eq_some_iff.mp found).imp_right fun shape => ⟨value, shape⟩))
          next notFound =>
            refine .broken speaks inner fun name isKeyLine => ?_
            obtain ⟨isKey, behind, shape⟩ := IsKeyLine.trimEnd_iff.mpr isKeyLine
            rw [keyAtStart?_eq_some_iff.mpr ⟨isKey, shape⟩] at notFound
            cases notFound

/-- Whether a line says anything is seen before anything else about it. -/
theorem classify_eq_silent_iff :
    classify line = .silent ↔ saysNothing line = true := by
  constructor
  · intro isSilent
    have read := readAs_classify line
    rw [isSilent] at read
    cases read with
    | silent nothing => exact nothing
    | inSection _ _ shown => cases shown
  · intro nothing
    rw [classify, Text.trim_trimEnd]
    exact if_pos nothing

end Reading

/-! ## Written lines -/

/-- A line that begins with a key at the margin, and does not end in blanks, sets the key. -/
theorem classify_at_margin
    {behind : Text}
    (isKey : IsKey name)
    (tight : Text.Tight (name ++ ':' :: behind)) :
    classify (name ++ ':' :: behind) = .key name (unquote behind) := by
  have read := isKey.keyAtStart?_append behind
  have trimEnd := tight.trimEnd_append []
  have trim := tight.trim_append (List.forall_mem_nil _)
  obtain ⟨first, rest, rfl, _, notHash, notBlank, notTab, notHyphen⟩ := isKey.head
  rw [List.nil_append] at trimEnd trim
  rw [classify, trimEnd, trim, read]
  simp [Text.startsWith, isInner, List.isPrefixOf, Ne.symm notHash, notBlank, notTab, notHyphen]

/-- A line that is indented by two blanks is judged by what stands behind them. -/
theorem classify_indented
    {first : Char}
    {rest : Text}
    (tight : Text.Tight (first :: rest))
    (notHash : first ≠ '#') :
    classify (' ' :: ' ' :: first :: rest) =
      indentedLine (' ' :: ' ' :: first :: rest) (first :: rest) := by
  have trimEnd := tight.trimEnd_append [' ', ' ']
  have trim := @Text.Tight.trim_append _ tight [' ', ' '] (List.all_eq_true.mp rfl)
  rw [List.cons_append, List.cons_append, List.nil_append] at trimEnd trim
  rw [classify, trimEnd, trim]
  simp [Text.startsWith, isInner, List.isPrefixOf, Ne.symm notHash]

/-- A line with a key at the margin and a written value. -/
theorem classify_text
    (isKey : IsKey name)
    (spelling : Spelling value written) :
    classify (name ++ ": " ++ written) = .key name value := by
  have shape : name ++ ": ".toList ++ written = name ++ ':' :: ([' '] ++ written) := by simp
  have tight : Text.Tight (name ++ ':' :: ([' '] ++ written)) := by
    obtain ⟨first, rest, rfl, notBlank, _⟩ := isKey.head
    obtain ⟨front, last, rfl, lastNotBlank⟩ := spelling.tight.last
    exact ⟨⟨first, _, rfl, notBlank⟩,
      ⟨first :: rest ++ ':' :: ' ' :: front, last, by simp, lastNotBlank⟩⟩
  rw [shape, classify_at_margin isKey tight, spelling.unquote_append (List.all_eq_true.mp rfl)]

/-- A line with a key at the margin and nothing else. -/
theorem classify_section
    (isKey : IsKey name) :
    classify (name ++ ":") = .key name [] := by
  have tight : Text.Tight (name ++ [':']) := by
    obtain ⟨first, rest, rfl, notBlank, _⟩ := isKey.head
    exact ⟨⟨first, _, rfl, notBlank⟩, ⟨first :: rest, ':', rfl, by decide⟩⟩
  exact classify_at_margin isKey tight

/-- A line with a key inside a section and a written value. -/
theorem classify_nested
    (isKey : IsKey name)
    (spelling : Spelling value written) :
    ∃ shown, classify ("  " ++ name ++ ": " ++ written) = .nested name value shown := by
  have read := isKey.keyAtStart?_append ([' '] ++ written)
  have unquoted : unquote ([' '] ++ written) = value :=
    spelling.unquote_append (List.all_eq_true.mp rfl)
  obtain ⟨first, rest, rfl, notBlank, notHash, _, _, notHyphen⟩ := isKey.head
  obtain ⟨front, last, rfl, lastNotBlank⟩ := spelling.tight.last
  have tight : Text.Tight (first :: (rest ++ ':' :: ' ' :: (front ++ [last]))) :=
    ⟨⟨first, _, rfl, notBlank⟩,
      ⟨first :: rest ++ ':' :: ' ' :: front, last, by simp, lastNotBlank⟩⟩
  have noItem : itemValue? (first :: (rest ++ ':' :: ' ' :: (front ++ [last]))) = none := by
    unfold itemValue?
    split
    next shape => exact (notHyphen (List.cons.inj shape).1).elim
    next => rfl
  refine ⟨first :: (rest ++ ':' :: ' ' :: (front ++ [last])), ?_⟩
  have shape :
      "  ".toList ++ first :: rest ++ ": ".toList ++ (front ++ [last]) =
        ' ' :: ' ' :: first :: (rest ++ ':' :: ' ' :: (front ++ [last])) := by
    simp
  rw [shape, classify_indented tight notHash]
  simp only [List.cons_append, List.nil_append] at read unquoted
  simp [indentedLine, Text.afterStart?, noItem, read, unquoted]

/-- A line with an item and a written value. -/
theorem classify_item
    (spelling : Spelling value written) :
    ∃ shown, classify ("  - " ++ written) = .item value shown := by
  have unquoted := spelling.unquote_append (List.forall_mem_nil _)
  obtain ⟨front, last, rfl, lastNotBlank⟩ := spelling.tight.last
  have tight : Text.Tight ('-' :: ' ' :: (front ++ [last])) :=
    ⟨⟨'-', _, rfl, by decide⟩, ⟨'-' :: ' ' :: front, last, rfl, lastNotBlank⟩⟩
  have isItem : itemValue? ('-' :: ' ' :: (front ++ [last])) = some (front ++ [last]) := rfl
  refine ⟨'-' :: ' ' :: (front ++ [last]), ?_⟩
  have shape :
      "  - ".toList ++ (front ++ [last]) = ' ' :: ' ' :: '-' :: ' ' :: (front ++ [last]) := by
    simp
  rw [shape, classify_indented tight (by decide)]
  rw [List.nil_append] at unquoted
  simp [indentedLine, Text.afterStart?, isItem, unquoted]

end TestAudit.Config
