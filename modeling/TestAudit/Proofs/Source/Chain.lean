import TestAudit.Proofs.Source.Receiver

namespace TestAudit.Receiver

/-!
# Chains and their floor

Read backwards, a text divides in one way into the pieces of a chain: characters of its class,
and bracketed groups. A chain is the longest ending between its floor and its offset that
divides so, unless the walk comes to a group that opens below the floor. Such a group should
take the chain to the floor, but takes it past the floor, or to the wrong end of the text.
-/

open Text

/-- A piece of a chain. In a group only the brackets of its own kind count. -/
inductive IsPiece : Text → Prop where
  | char {c : Char} : isChainChar c = true → IsPiece [c]
  | group {closer opener : Char} {inside : Text} :
      openerOf? closer = some opener →
      Leaves opener closer 0 inside 0 →
      IsPiece (opener :: inside ++ [closer])

/-- A text that divides into pieces of a chain. -/
inductive Divides : Text → Prop where
  | nil : Divides []
  | append {front piece : Text} : Divides front → IsPiece piece → Divides (front ++ piece)

/-- The end of a group without the bracket that opens it, and without `missing` others inside. -/
inductive IsCutGroup : Text → Prop where
  | intro {closer opener : Char} {missing : Nat} {inside : Text} :
      openerOf? closer = some opener →
      Leaves opener closer missing inside 0 →
      IsCutGroup (inside ++ [closer])

/-- A text that begins with the end of a group, and divides behind it. -/
def BeginsCut (text : Text) : Prop :=
  ∃ cut rest, text = cut ++ rest ∧ IsCutGroup cut ∧ Divides rest

/-- An ending of a text that divides; a group may be cut off where the text begins. -/
def IsDividedEnd (text ending : Text) : Prop :=
  ending <:+ text ∧ (Divides ending ∨ ending = text ∧ BeginsCut text)

/-- The longest ending of a text that divides. -/
structure IsLongestChain (text chain : Text) : Prop where
  isDividedEnd : IsDividedEnd text chain
  longest : ∀ ending, IsDividedEnd text ending → ending.length ≤ chain.length

/-! ## The walk back -/

theorem IsPiece.linked
    {piece : Text}
    (isPiece : IsPiece piece) :
    Linked piece := by
  cases isPiece with
  | char inChain => exact .of_isChainChar (List.forall_mem_singleton.mpr inChain)
  | group opens balanced => exact .group opens balanced

theorem Divides.linked
    {text : Text}
    (divides : Divides text) :
    Linked text := by
  induction divides with
  | nil => exact .nil
  | append _ isPiece inductionHypothesis => exact inductionHypothesis.append isPiece.linked

/-- The walk back has no length at a group that is cut off. -/
theorem IsCutGroup.chainLength?
    {cut : Text}
    (isCut : IsCutGroup cut) :
    chainLength? 0 cut.reverse = none := by
  cases isCut with
  | @intro closer opener missing inside opens reads =>
      have notFound : groupLength? closer opener 1 inside.reverse = none :=
        (groupLength?_eq_none_iff (ne_of_openerOf? opens)).mpr ⟨missing, reads.reverse⟩
      rw [List.reverse_append, List.reverse_singleton, List.singleton_append,
        Receiver.chainLength?]
      simp only [opens, notFound]

theorem BeginsCut.chainLength?
    {text : Text}
    (beginsCut : BeginsCut text) :
    chainLength? 0 text.reverse = none := by
  obtain ⟨cut, rest, rfl, isCut, divides⟩ := beginsCut
  rw [divides.linked, isCut.chainLength?]
  rfl

theorem BeginsCut.length_pos
    {text : Text}
    (beginsCut : BeginsCut text) :
    0 < text.length := by
  obtain ⟨cut, rest, rfl, isCut, _⟩ := beginsCut
  cases isCut
  simp only [List.length_append, List.length_singleton]
  omega

/-- An ending that divides is part of the chain. -/
theorem Divides.length_le
    {text ending : Text}
    {length : Nat}
    (divides : Divides ending)
    (isEnding : ending <:+ text)
    (walked : chainLength? 0 text.reverse = some length) :
    ending.length ≤ length := by
  obtain ⟨before, rfl⟩ := isEnding
  rw [divides.linked] at walked
  obtain ⟨shorter, _, rfl⟩ := Option.map_eq_some_iff.mp walked
  exact Nat.le_add_left _ _

/-- The last piece of a text, a group that is cut off, or neither. -/
theorem last_piece_cases
    (front : Text)
    (c : Char) :
    (∃ shorter piece, front ++ [c] = shorter ++ piece ∧ IsPiece piece ∧ piece ≠ []) ∨
      IsCutGroup (front ++ [c]) ∨
      chainLength? 0 (front ++ [c]).reverse = some 0 := by
  rw [List.reverse_append, List.reverse_singleton, List.singleton_append]
  cases opens : openerOf? c with
  | none =>
      cases inChain : isChainChar c with
      | true => exact Or.inl ⟨front, [c], rfl, .char inChain, List.cons_ne_nil _ _⟩
      | false =>
          right; right
          rw [chainLength?, opens]
          simp [inChain]
  | some opener =>
      have differ := ne_of_openerOf? opens
      cases found : groupLength? c opener 1 front.reverse with
      | none =>
          obtain ⟨missing, reads⟩ := (groupLength?_eq_none_iff differ).mp found
          have forwards := reads.reverse
          rw [List.reverse_reverse] at forwards
          exact Or.inr (Or.inl (.intro opens forwards))
      | some length =>
          obtain ⟨inside, outer, backwards, _, reads⟩ := (groupLength?_eq_some_iff differ).mp found
          have shape : front = outer.reverse ++ opener :: inside.reverse := by
            rw [← List.reverse_reverse front, backwards]
            simp
          refine Or.inl ⟨outer.reverse, opener :: inside.reverse ++ [c], ?_,
            .group opens reads.reverse, List.cons_ne_nil _ _⟩
          rw [shape, List.append_assoc]

/-- The chain of a text divides, or the walk back comes to a group that is cut off. -/
theorem exists_divided_or_beginsCut
    (text : Text) :
    (∃ before taken,
        text = before ++ taken ∧ Divides taken ∧
          chainLength? 0 text.reverse = some taken.length) ∨
      BeginsCut text := by
  induction size : text.length using Nat.strongRecOn generalizing text with
  | ind size inductionHypothesis =>
      subst size
      rcases List.eq_nil_or_concat text with rfl | ⟨front, c, rfl⟩
      · exact Or.inl ⟨[], [], rfl, .nil, rfl⟩
      rw [List.concat_eq_append] at inductionHypothesis ⊢
      rcases last_piece_cases front c with ⟨shorter, piece, shape, isPiece, notEmpty⟩ | isCut | ends
      · rw [shape] at inductionHypothesis ⊢
        have isShorter : shorter.length < (shorter ++ piece).length := by
          have positive := List.length_pos_iff.mpr notEmpty
          rw [List.length_append]
          omega
        rcases inductionHypothesis _ isShorter shorter rfl with
          ⟨before, taken, rfl, divides, walked⟩ | ⟨cut, rest, rfl, isCut, divides⟩
        · refine Or.inl ⟨before, taken ++ piece, List.append_assoc _ _ _, divides.append isPiece, ?_⟩
          rw [isPiece.linked, walked, List.length_append]
          rfl
        · exact Or.inr ⟨cut, rest ++ piece, List.append_assoc _ _ _, isCut, divides.append isPiece⟩
      · exact Or.inr ⟨front ++ [c], [], (List.append_nil _).symm, isCut, .nil⟩
      · exact Or.inl ⟨front ++ [c], [], (List.append_nil _).symm, .nil, ends⟩

/-! ## Down to the floor -/

section Floor

variable {text : Text} {offset floor : Nat}

/-- Without a group that is cut off at the floor, the chain is the longest ending that divides. -/
theorem isLongestChain_of_not_beginsCut
    (whole : ¬ BeginsCut ((text.take offset).drop floor)) :
    IsLongestChain ((text.take offset).drop floor) (chain text offset floor) := by
  obtain ⟨before, taken, shape, divides, walked⟩ :=
    (exists_divided_or_beginsCut _).resolve_right whole
  have isChain : chain text offset floor = taken := by
    unfold chain
    simp only [← List.drop_take, walked]
    rw [shape, List.length_append, Nat.add_sub_cancel, List.drop_left]
  rw [isChain]
  refine ⟨⟨⟨before, shape.symm⟩, Or.inl divides⟩, ?_⟩
  rintro ending ⟨isEnding, divided | ⟨_, beginsCut⟩⟩
  · exact divided.length_le isEnding walked
  · exact (whole beginsCut).elim

/-- At a group that is cut off, the chain begins below the floor, or at the end of the text. -/
theorem chain_of_beginsCut
    (beginsCut : BeginsCut ((text.take offset).drop floor)) :
    chain text offset floor =
      (text.take offset).drop (if floor = 0 then text.length - 1 else floor - 1) := by
  unfold chain
  simp only [← List.drop_take, beginsCut.chainLength?]

/--
The chain is the longest ending between its floor and its offset that divides, and so does not
leave these bounds, exactly when the walk back comes to no group that is cut off at the floor,
or the text is one character long.
-/
theorem isLongestChain_iff
    (text : Text)
    (offset floor : Nat) :
    IsLongestChain ((text.take offset).drop floor) (chain text offset floor) ↔
      ¬ BeginsCut ((text.take offset).drop floor) ∨ text.length = 1 := by
  by_cases beginsCut : BeginsCut ((text.take offset).drop floor)
  · rw [or_iff_right (not_not_intro beginsCut)]
    have wholeReach : IsDividedEnd ((text.take offset).drop floor) ((text.take offset).drop floor) :=
      ⟨List.suffix_refl _, Or.inr ⟨rfl, beginsCut⟩⟩
    have notEmpty := beginsCut.length_pos
    have isChain := chain_of_beginsCut beginsCut
    constructor
    · intro isLongest
      have atMost := isLongest.isDividedEnd.1.length_le
      have atLeast := isLongest.longest _ wholeReach
      rw [isChain] at atMost atLeast
      simp only [List.length_drop, List.length_take] at atMost atLeast notEmpty
      by_cases fromStart : floor = 0
      · rw [if_pos fromStart] at atMost atLeast
        omega
      · rw [if_neg fromStart] at atMost
        omega
    · intro single
      have fromStart : floor = 0 := by
        simp only [List.length_drop, List.length_take] at notEmpty
        omega
      subst fromStart
      rw [isChain, if_pos rfl, single]
      refine ⟨wholeReach, fun ending isEnd => isEnd.1.length_le⟩
  · exact iff_of_true (isLongestChain_of_not_beginsCut beginsCut) (Or.inl beginsCut)

/-- A closing parenthesis at the floor takes the chain to the character below it. -/
theorem not_isLongestChain_of_cut_group :
    ¬ IsLongestChain ((("a)" : Text).take 2).drop 1) (chain "a)" 2 1) := by
  intro isLongest
  have within := isLongest.isDividedEnd.1.length_le
  revert within
  decide

end Floor

end TestAudit.Receiver
