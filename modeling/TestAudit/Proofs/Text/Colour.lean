import TestAudit.Proofs.Text.Segment
import TestAudit.Text.Colour

namespace TestAudit.Text

/-!
# Texts without colours

Taking the colour sequences out of a text takes out each one that stands in it, but may bring
the parts of another one together. It does so just where the characters of a colour sequence
stand in the text with whole colour sequences between them, and only there a second pass would
take out more than the first.
-/

/-! ## Colour sequences -/

/-- A colour sequence: the escape character, an opening bracket, parameters and the letter m. -/
def IsColour (text : Text) : Prop :=
  ∃ parameters,
    text = '\x1b' :: '[' :: (parameters ++ ['m']) ∧
      ∀ c ∈ parameters, isColourParameter c = true

/-- A colour sequence stands in a text. -/
def HasColour (text : Text) : Prop :=
  ∃ colour, IsColour colour ∧ colour <:+: text

/-- Colour sequences one right behind the other, possibly none. -/
inductive Colours : Text → Prop where
  | nil : Colours []
  | cons {colour rest : Text} : IsColour colour → Colours rest → Colours (colour ++ rest)

/-- The characters of a text in order, with colour sequences, possibly none, between them. -/
inductive Spread : Text → Text → Prop where
  | last (c : Char) : Spread [c] [c]
  | cons {between chars text : Text} (c : Char) :
      Colours between →
      Spread chars text →
      Spread (c :: chars) (c :: (between ++ text))

/-- A torn colour sequence: there are other ones between its characters. -/
def IsTorn (text : Text) : Prop :=
  ∃ colour, IsColour colour ∧ Spread colour text ∧ text ≠ colour

/-- A torn colour sequence stands in a text. -/
def HasTorn (text : Text) : Prop :=
  ∃ torn, IsTorn torn ∧ torn <:+: text

theorem isColourParameter_ne
    {c : Char}
    (parameter : isColourParameter c = true) :
    c ≠ 'm' ∧ c ≠ '\x1b' := by
  constructor
  · rintro rfl
    exact absurd parameter (by decide)
  · rintro rfl
    exact absurd parameter (by decide)

/-- The escape character stands only at the beginning of a colour sequence. -/
theorem IsColour.shape
    {colour : Text}
    (isColour : IsColour colour) :
    ∃ rest, colour = '\x1b' :: rest ∧ '\x1b' ∉ rest := by
  obtain ⟨parameters, rfl, areParameters⟩ := isColour
  refine ⟨_, rfl, fun member => ?_⟩
  simp only [List.mem_cons, List.mem_append, List.not_mem_nil, or_false] at member
  obtain isBracket | inParameters | isLetter := member
  · cases isBracket
  · exact (isColourParameter_ne (areParameters _ inParameters)).2 rfl
  · cases isLetter

/-- A colour sequence is recognised, whatever stands behind it. -/
theorem colourSequence?_append
    {c : Char}
    {body : Text}
    (isColour : IsColour (c :: body))
    (rest : Text) :
    colourSequence? (c :: (body ++ rest)) = some body.length := by
  obtain ⟨parameters, shape, areParameters⟩ := isColour
  obtain ⟨rfl, rfl⟩ := List.cons.inj shape
  have taken : (parameters ++ 'm' :: rest).takeWhile isColourParameter = parameters := by
    rw [List.takeWhile_append_of_pos areParameters, List.takeWhile_cons_of_neg (by decide),
      List.append_nil]
  rw [List.cons_append, List.append_assoc, List.singleton_append]
  simp [colourSequence?, taken]

/-- What is recognised is a colour sequence. -/
theorem exists_of_colourSequence?
    {c : Char}
    {text : Text}
    {more : Nat}
    (recognised : colourSequence? (c :: text) = some more) :
    ∃ body rest, text = body ++ rest ∧ body.length = more ∧ IsColour (c :: body) := by
  unfold colourSequence? at recognised
  split at recognised
  next behind same =>
    obtain ⟨rfl, rfl⟩ := List.cons.inj same
    have parts := @List.takeWhile_append_dropWhile _ isColourParameter behind
    have areParameters := List.all_eq_true.mp (@List.all_takeWhile _ isColourParameter behind)
    have afterParameters :
        behind.drop (behind.takeWhile isColourParameter).length =
          behind.dropWhile isColourParameter :=
      calc
        behind.drop (behind.takeWhile isColourParameter).length
        _ = (behind.takeWhile isColourParameter ++ behind.dropWhile isColourParameter).drop
              (behind.takeWhile isColourParameter).length := by rw [parts]
        _ = behind.dropWhile isColourParameter := List.drop_left
    dsimp only at recognised
    rw [afterParameters] at recognised
    split at recognised
    next closes =>
      cases recognised
      obtain ⟨rest, isRest⟩ := List.head?_eq_some_iff.mp closes
      refine ⟨'[' :: (behind.takeWhile isColourParameter ++ ['m']), rest, ?_, by simp,
        _, rfl, areParameters⟩
      rw [List.cons_append, List.append_assoc, List.singleton_append, ← isRest, parts]
    next => cases recognised
  next => cases recognised

/-! ## Taking colours out -/

@[simp] theorem stripColours_nil : stripColours [] = [] :=
  rfl

theorem stripColours_of_plain
    {c : Char}
    {rest : Text}
    (plain : colourSequence? (c :: rest) = none) :
    stripColours (c :: rest) = c :: stripColours rest :=
  replaceTokens_of_plain plain

theorem stripColours_of_colour
    {colour : Text}
    (isColour : IsColour colour)
    (rest : Text) :
    stripColours (colour ++ rest) = stripColours rest := by
  obtain ⟨body, rfl, _⟩ := isColour.shape
  rw [stripColours, List.cons_append, replaceTokens_of_token (colourSequence?_append isColour rest),
    List.drop_left, List.nil_append, stripColours]

theorem stripColours_of_colours
    {colours : Text}
    (areColours : Colours colours)
    (rest : Text) :
    stripColours (colours ++ rest) = stripColours rest := by
  induction areColours with
  | nil => rfl
  | cons isColour _ inductionHypothesis =>
      rw [List.append_assoc, stripColours_of_colour isColour, inductionHypothesis]

/-- Only the escape character begins a colour sequence. -/
theorem colourSequence?_of_ne_escape
    {c : Char}
    (differs : c ≠ '\x1b')
    (rest : Text) :
    colourSequence? (c :: rest) = none := by
  cases recognised : colourSequence? (c :: rest) with
  | none => rfl
  | some more =>
      obtain ⟨body, _, _, _, isColour⟩ := exists_of_colourSequence? recognised
      obtain ⟨_, shape, _⟩ := isColour.shape
      cases shape
      exact (differs rfl).elim

/-- A text is empty, or begins with a colour sequence, or with a character that stays. -/
@[elab_as_elim]
theorem colour_induction
    {motive : Text → Prop}
    (nil : motive [])
    (colour : ∀ colour rest, IsColour colour → motive rest → motive (colour ++ rest))
    (plain : ∀ c rest, colourSequence? (c :: rest) = none → motive rest → motive (c :: rest))
    (text : Text) :
    motive text := by
  induction length : text.length using Nat.strongRecOn generalizing text with
  | ind bound inductionHypothesis =>
      subst length
      cases text with
      | nil => exact nil
      | cons c text =>
          cases recognised : colourSequence? (c :: text) with
          | none =>
              have shorter : text.length < (c :: text).length := Nat.lt_succ_self _
              exact plain c text recognised (inductionHypothesis _ shorter text rfl)
          | some more =>
              obtain ⟨body, rest, rfl, _, isColour⟩ := exists_of_colourSequence? recognised
              have shorter : rest.length < (c :: (body ++ rest)).length := by
                rw [List.length_cons, List.length_append]
                omega
              exact colour (c :: body) rest isColour (inductionHypothesis _ shorter rest rfl)

theorem length_stripColours_le
    (text : Text) :
    (stripColours text).length ≤ text.length := by
  induction text using colour_induction with
  | nil => exact Nat.le_refl 0
  | colour colour rest isColour inductionHypothesis =>
      rw [stripColours_of_colour isColour, List.length_append]
      omega
  | plain c rest plain inductionHypothesis =>
      rw [stripColours_of_plain plain, List.length_cons, List.length_cons]
      omega

/-- What is plain stays so in front of an escape character, which no colour sequence goes over. -/
theorem colourSequence?_append_escape
    {c : Char}
    {before : Text}
    (plain : colourSequence? (c :: before) = none)
    (rest : Text) :
    colourSequence? (c :: (before ++ '\x1b' :: rest)) = none := by
  cases recognised : colourSequence? (c :: (before ++ '\x1b' :: rest)) with
  | none => rfl
  | some more =>
      obtain ⟨body, after, shape, _, isColour⟩ := exists_of_colourSequence? recognised
      obtain ⟨_, isShape, noEscape⟩ := isColour.shape
      obtain ⟨_, rfl⟩ := List.cons.inj isShape
      obtain ⟨behind, rfl, beyond⟩ | ⟨behind, rfl, _⟩ := List.append_eq_append_iff.mp shape
      · cases behind with
        | nil =>
            rw [List.append_nil] at isColour
            have found := colourSequence?_append isColour []
            rw [List.append_nil, plain] at found
            cases found
        | cons d behind =>
            obtain ⟨rfl, _⟩ := List.cons.inj beyond
            exact (noEscape (by simp)).elim
      · rw [colourSequence?_append isColour behind] at plain
        cases plain

/-- In front of an escape character a text is stripped on its own. -/
theorem stripColours_append_escape
    (before rest : Text) :
    stripColours (before ++ '\x1b' :: rest) =
      stripColours before ++ stripColours ('\x1b' :: rest) := by
  induction before using colour_induction with
  | nil => rfl
  | colour colour before isColour inductionHypothesis =>
      rw [List.append_assoc, stripColours_of_colour isColour, inductionHypothesis,
        stripColours_of_colour isColour]
  | plain c before plain inductionHypothesis =>
      rw [List.cons_append, stripColours_of_plain (colourSequence?_append_escape plain rest),
        inductionHypothesis, stripColours_of_plain plain, List.cons_append]

/-! ## What is brought together -/

/-- A character that stays has colour sequences before it, and is not the beginning of one. -/
theorem exists_of_stripColours_eq_cons
    {text result : Text}
    {c : Char}
    (stripped : stripColours text = c :: result) :
    ∃ between rest,
      text = between ++ c :: rest ∧
        Colours between ∧ colourSequence? (c :: rest) = none ∧ stripColours rest = result := by
  induction text using colour_induction with
  | nil => cases stripped
  | colour colour text isColour inductionHypothesis =>
      rw [stripColours_of_colour isColour] at stripped
      obtain ⟨between, rest, rfl, areColours, plain, behind⟩ := inductionHypothesis stripped
      exact ⟨colour ++ between, rest, (List.append_assoc _ _ _).symm, .cons isColour areColours,
        plain, behind⟩
  | plain d text plain inductionHypothesis =>
      rw [stripColours_of_plain plain] at stripped
      obtain ⟨rfl, behind⟩ := List.cons.inj stripped
      exact ⟨[], text, rfl, .nil, plain, behind⟩

theorem exists_of_stripColours_eq_append
    {text front result : Text}
    (stripped : stripColours text = front ++ result) :
    ∃ before rest, text = before ++ rest ∧ stripColours rest = result := by
  induction front generalizing text with
  | nil => exact ⟨[], text, rfl, stripped⟩
  | cons c front inductionHypothesis =>
      obtain ⟨between, rest, rfl, _, _, behind⟩ := exists_of_stripColours_eq_cons stripped
      obtain ⟨before, rest, rfl, isResult⟩ := inductionHypothesis behind
      exact ⟨between ++ c :: before, rest, by simp, isResult⟩

/-- Characters that stay next to each other are spread over a part of the text. -/
theorem exists_spread
    {text chars after : Text}
    {c : Char}
    (stripped : stripColours text = c :: (chars ++ after)) :
    ∃ between body rest,
      text = between ++ (body ++ rest) ∧
        Colours between ∧ Spread (c :: chars) body ∧ colourSequence? (body ++ rest) = none := by
  induction chars generalizing text c with
  | nil =>
      obtain ⟨between, rest, rfl, areColours, plain, _⟩ := exists_of_stripColours_eq_cons stripped
      exact ⟨between, [c], rest, rfl, areColours, .last c, plain⟩
  | cons d chars inductionHypothesis =>
      obtain ⟨between, rest, rfl, areColours, plain, behind⟩ :=
        exists_of_stripColours_eq_cons stripped
      obtain ⟨inside, body, rest, rfl, areInside, spread, _⟩ := inductionHypothesis behind
      refine ⟨between, c :: (inside ++ body), rest, ?_, areColours, .cons c areInside spread, ?_⟩
      · simp
      · simpa using plain

theorem Spread.shape
    {chars text : Text}
    (spread : Spread chars text) :
    ∃ c others rest, chars = c :: others ∧ text = c :: rest := by
  cases spread with
  | last c => exact ⟨c, [], [], rfl, rfl⟩
  | cons c _ _ => exact ⟨c, _, _, rfl, rfl⟩

/-- Where the characters of a text are spread and begin no colour sequence, they are brought together. -/
theorem Spread.stripColours_append
    {chars text : Text}
    (spread : Spread chars text)
    (noEscape : '\x1b' ∉ chars.tail)
    {after : Text}
    (plain : colourSequence? (text ++ after) = none) :
    stripColours (text ++ after) = chars ++ stripColours after := by
  induction spread with
  | last c => exact stripColours_of_plain plain
  | @cons between chars text c areColours spread inductionHypothesis =>
      obtain ⟨d, others, rest, rfl, rfl⟩ := spread.shape
      rw [List.tail_cons, List.mem_cons, not_or] at noEscape
      have behind := inductionHypothesis noEscape.2 (colourSequence?_of_ne_escape (Ne.symm noEscape.1) _)
      rw [List.cons_append, List.append_assoc] at plain ⊢
      rw [stripColours_of_plain plain, stripColours_of_colours areColours, behind]
      rfl

/-- A text over which others are spread has them at its beginning, or other colours interrupt it. -/
theorem Spread.eq_or_exists
    {chars text : Text}
    (spread : Spread chars text) :
    text = chars ∨
      ∃ front last rest,
        chars = front ++ last ∧ front ≠ [] ∧ last ≠ [] ∧ text = front ++ '\x1b' :: rest := by
  induction spread with
  | last c => exact Or.inl rfl
  | @cons between chars text c areColours spread inductionHypothesis =>
      cases areColours with
      | nil =>
          obtain rfl | ⟨front, last, rest, rfl, _, more, rfl⟩ := inductionHypothesis
          · exact Or.inl rfl
          · exact Or.inr ⟨c :: front, last, rest, rfl, List.cons_ne_nil _ _, more, rfl⟩
      | cons isColour _ =>
          obtain ⟨_, _, _, rfl, _⟩ := spread.shape
          obtain ⟨_, rfl, _⟩ := isColour.shape
          exact Or.inr ⟨[c], _, _, rfl, List.cons_ne_nil _ _, List.cons_ne_nil _ _, rfl⟩

/-- The letter that ends a colour sequence stands only there. -/
theorem IsColour.not_mem_of_append
    {front last : Text}
    (isColour : IsColour (front ++ last))
    (notAll : last ≠ []) :
    'm' ∉ front := by
  obtain ⟨parameters, shape, areParameters⟩ := isColour
  have inParameters : front <+: '\x1b' :: '[' :: parameters := by
    obtain ⟨others, final, rfl⟩ := (List.eq_nil_or_concat last).resolve_left notAll
    rw [List.concat_eq_append, ← List.append_assoc, ← List.cons_append, ← List.cons_append] at shape
    exact ⟨others, (List.append_inj' shape rfl).1⟩
  intro member
  have inside := inParameters.subset member
  simp only [List.mem_cons] at inside
  obtain isEscape | isBracket | inside := inside
  · cases isEscape
  · cases isBracket
  · exact (isColourParameter_ne (areParameters _ inside)).1 rfl

theorem colourSequence?_of_not_mem
    {text : Text}
    (absent : 'm' ∉ text)
    (c : Char) :
    colourSequence? (c :: text) = none := by
  cases recognised : colourSequence? (c :: text) with
  | none => rfl
  | some more =>
      obtain ⟨_, rest, rfl, _, parameters, shape, _⟩ := exists_of_colourSequence? recognised
      obtain ⟨_, rfl⟩ := List.cons.inj shape
      exact (absent (by simp)).elim

/-- A torn colour sequence does not begin with a whole one. -/
theorem Spread.plain_of_ne
    {colour torn : Text}
    (spread : Spread colour torn)
    (isColour : IsColour colour)
    (differs : torn ≠ colour)
    (after : Text) :
    colourSequence? (torn ++ after) = none := by
  obtain isWhole | ⟨front, last, rest, rfl, notEmpty, more, rfl⟩ := spread.eq_or_exists
  · exact (differs isWhole).elim
  have noLetter := isColour.not_mem_of_append more
  obtain ⟨c, front, rfl⟩ := List.exists_cons_of_ne_nil notEmpty
  rw [List.append_assoc, List.cons_append, List.cons_append]
  refine colourSequence?_append_escape (colourSequence?_of_not_mem ?_ c) (rest ++ after)
  exact fun member => noLetter (List.mem_cons_of_mem c member)

/-- A text keeps a colour sequence just where a torn one stands in it. -/
theorem hasColour_stripColours_iff
    {text : Text} :
    HasColour (stripColours text) ↔ HasTorn text := by
  constructor
  · rintro ⟨colour, isColour, before, after, stripped⟩
    rw [List.append_assoc] at stripped
    obtain ⟨front, back, rfl, behind⟩ := exists_of_stripColours_eq_append stripped.symm
    obtain ⟨others, rfl, _⟩ := isColour.shape
    obtain ⟨between, torn, rest, rfl, _, spread, plain⟩ := exists_spread behind
    refine ⟨torn, ⟨_, isColour, spread, ?_⟩, front ++ between, rest, by simp⟩
    rintro rfl
    rw [List.cons_append, colourSequence?_append isColour rest] at plain
    cases plain
  · rintro ⟨torn, ⟨colour, isColour, spread, differs⟩, before, after, rfl⟩
    have plain := spread.plain_of_ne isColour differs after
    obtain ⟨others, rfl, noEscape⟩ := isColour.shape
    have stripped := spread.stripColours_append noEscape plain
    obtain ⟨_, _, rest, same, rfl⟩ := spread.shape
    obtain ⟨rfl, rfl⟩ := List.cons.inj same
    refine ⟨_, isColour, stripColours before, stripColours after, ?_⟩
    rw [List.append_assoc, ← stripped, List.append_assoc, List.cons_append,
      stripColours_append_escape]

/-! ## A second pass -/

/-- Nothing is taken out of a text without colours, and something out of any other. -/
theorem stripColours_eq_self_iff
    {text : Text} :
    stripColours text = text ↔ ¬ HasColour text := by
  constructor
  · rintro stays ⟨colour, isColour, before, after, rfl⟩
    obtain ⟨others, rfl, _⟩ := isColour.shape
    have shorter := length_stripColours_le before
    have shorterBehind := length_stripColours_le after
    have lengths := congrArg List.length stays
    rw [List.append_assoc, List.cons_append, stripColours_append_escape, ← List.cons_append,
      stripColours_of_colour isColour] at lengths
    simp only [List.length_append, List.length_cons] at lengths
    omega
  · intro noColour
    induction text using colour_induction with
    | nil => rfl
    | colour colour rest isColour _ =>
        exact (noColour ⟨colour, isColour, [], rest, rfl⟩).elim
    | plain c rest plain inductionHypothesis =>
        rw [stripColours_of_plain plain, inductionHypothesis]
        rintro ⟨colour, isColour, inRest⟩
        exact noColour ⟨colour, isColour, inRest.trans (List.suffix_cons c rest).isInfix⟩

/-- A second pass changes nothing just where no colour sequence was brought together. -/
theorem stripColours_stripColours_iff
    {text : Text} :
    stripColours (stripColours text) = stripColours text ↔ ¬ HasTorn text := by
  rw [stripColours_eq_self_iff, hasColour_stripColours_iff]

end TestAudit.Text
