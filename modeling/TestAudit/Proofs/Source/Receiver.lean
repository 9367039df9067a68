import TestAudit.Proofs.Text.CharacterClass
import TestAudit.Proofs.Text.Nesting
import TestAudit.Proofs.Text.Trim
import TestAudit.Source.Receiver

namespace TestAudit.Receiver

/-!
# Receivers that are read-only

A chain is read backwards and its parentheses are counted without regard to
literals. What makes a receiver read-only is therefore a run of characters that
can be told from the text alone: the name of a snapshot call, a text between
parentheses that is balanced in this sense, and what leads on to the member.
-/

open Text

/-- Whether a character leads from a receiver on to its member. -/
def isAccess (c : Char) : Bool :=
  c == '.' || c == '?'

/-- The characters between two offsets end in a snapshot call, parentheses being counted. -/
structure CountedSnapshot
    (text : Text) (floor offset : Nat) (front name argument access : Text) : Prop where
  shape :
    (text.take offset).drop floor = front ++ name ++ '(' :: argument ++ ')' :: access
  isSnapshot : name ∈ snapshotCalls
  whole : front.getLast?.any isWord = false
  balanced : Balanced argument
  leadsOn : ∀ c ∈ access, isAccess c = true

/-! ## Groups -/

/-- A group read backwards ends at the bracket that opens it. -/
theorem groupLength?_eq_some_iff
    {closer opener : Char}
    {depth length : Nat}
    {text : Text}
    (differ : closer ≠ opener) :
    groupLength? closer opener (depth + 1) text = some length ↔
      ∃ inside outer,
        text = inside ++ opener :: outer ∧
          length = inside.length + 1 ∧
          Leaves closer opener depth inside 0 := by
  induction text generalizing depth length with
  | nil => simp [groupLength?]
  | cons c rest inductionHypothesis =>
      constructor
      · intro found
        unfold groupLength? at found
        split at found
        · next isCloser =>
            obtain ⟨shorter, foundRest, rfl⟩ := Option.map_eq_some_iff.mp found
            obtain ⟨inside, outer, rfl, rfl, reads⟩ := inductionHypothesis.mp foundRest
            subst isCloser
            exact ⟨c :: inside, outer, rfl, rfl, .opened reads⟩
        · next notCloser =>
            split at found
            · next isOpener =>
                subst isOpener
                cases depth with
                | zero =>
                    cases found
                    exact ⟨[], rest, rfl, rfl, .nothing⟩
                | succ depth =>
                    have deeper : ¬ depth + 1 + 1 ≤ 1 := by omega
                    rw [if_neg deeper] at found
                    obtain ⟨shorter, foundRest, rfl⟩ := Option.map_eq_some_iff.mp found
                    obtain ⟨inside, outer, rfl, rfl, reads⟩ :=
                      inductionHypothesis.mp foundRest
                    exact ⟨c :: inside, outer, rfl, rfl, .closed reads⟩
            · next notOpener =>
                obtain ⟨shorter, foundRest, rfl⟩ := Option.map_eq_some_iff.mp found
                obtain ⟨inside, outer, rfl, rfl, reads⟩ := inductionHypothesis.mp foundRest
                exact ⟨c :: inside, outer, rfl, rfl, .other notCloser notOpener reads⟩
      · rintro ⟨inside, outer, shape, rfl, reads⟩
        cases reads with
        | nothing =>
            obtain ⟨rfl, rfl⟩ := List.cons.inj shape
            simp [groupLength?, differ.symm]
        | opened reads =>
            obtain ⟨rfl, rfl⟩ := List.cons.inj shape
            rw [groupLength?, if_pos rfl,
              inductionHypothesis.mpr ⟨_, outer, rfl, rfl, reads⟩]
            rfl
        | @closed depth _ _ reads =>
            obtain ⟨rfl, rfl⟩ := List.cons.inj shape
            have deeper : ¬ depth + 1 + 1 ≤ 1 := by omega
            rw [groupLength?, if_neg differ.symm, if_pos rfl, if_neg deeper,
              Nat.add_sub_cancel, inductionHypothesis.mpr ⟨_, outer, rfl, rfl, reads⟩]
            rfl
        | other notCloser notOpener reads =>
            obtain ⟨rfl, rfl⟩ := List.cons.inj shape
            rw [groupLength?, if_neg notCloser, if_neg notOpener,
              inductionHypothesis.mpr ⟨_, outer, rfl, rfl, reads⟩]
            rfl

/-- A group without an opening bracket is read to its end, whatever is left open. -/
theorem groupLength?_eq_none_iff
    {closer opener : Char}
    {depth : Nat}
    {text : Text}
    (differ : closer ≠ opener) :
    groupLength? closer opener (depth + 1) text = none ↔
      ∃ remaining, Leaves closer opener depth text remaining := by
  constructor
  · intro notFound
    induction text generalizing depth with
    | nil => exact ⟨depth, .nothing⟩
    | cons c rest inductionHypothesis =>
        unfold groupLength? at notFound
        split at notFound
        next isCloser =>
          subst isCloser
          obtain ⟨remaining, reads⟩ := inductionHypothesis (Option.map_eq_none_iff.mp notFound)
          exact ⟨remaining, .opened reads⟩
        next notCloser =>
          split at notFound
          next isOpener =>
            subst isOpener
            cases depth with
            | zero => cases notFound
            | succ depth =>
                rw [if_neg (by omega)] at notFound
                obtain ⟨remaining, reads⟩ :=
                  inductionHypothesis (Option.map_eq_none_iff.mp notFound)
                exact ⟨remaining, .closed reads⟩
          next notOpener =>
            obtain ⟨remaining, reads⟩ := inductionHypothesis (Option.map_eq_none_iff.mp notFound)
            exact ⟨remaining, .other notCloser notOpener reads⟩
  · rintro ⟨remaining, reads⟩
    refine Option.eq_none_iff_forall_ne_some.mpr fun length found => ?_
    obtain ⟨inside, outer, rfl, _, closes⟩ := (groupLength?_eq_some_iff differ).mp found
    obtain ⟨middle, readsInside, goesOn⟩ := reads.exists_middle
    have readsTo := readsInside.count_add differ
    have closesTo := closes.count_add differ
    obtain rfl : middle = 0 := by omega
    cases goesOn with
    | opened => exact differ rfl
    | other _ notOpener _ => exact notOpener rfl

theorem ne_of_openerOf?
    {closer opener : Char}
    (opens : openerOf? closer = some opener) :
    closer ≠ opener := by
  rintro rfl
  unfold openerOf? at opens
  split at opens <;> cases opens

/-! ## Chains -/

/-- No blank belongs to a chain, outside groups. -/
theorem isChainChar_of_isBlank
    {c : Char}
    (blank : isBlank c = true) :
    isChainChar c = false := by
  have notInChain : (!isChainChar c) = true :=
    of_isBlank (!isChainChar ·) (by decide +kernel) blank
  simpa using notInChain

theorem chainLength?_passed
    (passed rest : Text) :
    chainLength? passed.length (passed ++ rest) =
      (chainLength? 0 rest).map (· + passed.length) := by
  induction passed with
  | nil => simp
  | cons c passed inductionHypothesis =>
      rw [List.length_cons, List.cons_append, chainLength?, inductionHypothesis, Option.map_map]
      rfl

/-- Characters of a chain outside groups are taken one by one. -/
theorem chainLength?_append
    {passed rest : Text}
    (inChain : ∀ c ∈ passed, isChainChar c = true) :
    chainLength? 0 (passed ++ rest) =
      (chainLength? 0 rest).map (· + passed.length) := by
  induction passed with
  | nil => simp
  | cons c passed inductionHypothesis =>
      have head : isChainChar c = true := inChain c List.mem_cons_self
      have notCloser : openerOf? c = none := by
        unfold openerOf?
        split
        · cases head
        · cases head
        · rfl
      have tail := inductionHypothesis fun d member => inChain d (List.mem_cons_of_mem c member)
      rw [List.cons_append, chainLength?, notCloser]
      simp only [head, ↓reduceIte]
      rw [tail, Option.map_map]
      rfl

/-- A chain that comes to the end of these characters goes on to their beginning. -/
def Linked (taken : Text) : Prop :=
  ∀ before,
    chainLength? 0 (before ++ taken).reverse =
      (chainLength? 0 before.reverse).map (· + taken.length)

namespace Linked

theorem nil : Linked [] := by
  intro before
  simp

theorem append
    {first second : Text}
    (linkedFirst : Linked first)
    (linkedSecond : Linked second) :
    Linked (first ++ second) := by
  intro before
  rw [← List.append_assoc, linkedSecond, linkedFirst, Option.map_map]
  simp [Function.comp_def, Nat.add_assoc]

theorem of_isChainChar
    {taken : Text}
    (inChain : ∀ c ∈ taken, isChainChar c = true) :
    Linked taken := by
  intro before
  rw [List.reverse_append, chainLength?_append, List.length_reverse]
  intro c member
  exact inChain c (List.mem_reverse.mp member)

/-- A chain passes over a balanced group as a whole. -/
theorem group
    {closer opener : Char}
    {inside : Text}
    (opens : openerOf? closer = some opener)
    (balanced : Leaves opener closer 0 inside 0) :
    Linked (opener :: inside ++ [closer]) := by
  intro before
  have found :
      groupLength? closer opener 1 (inside.reverse ++ opener :: before.reverse) =
        some (inside.length + 1) := by
    rw [groupLength?_eq_some_iff (ne_of_openerOf? opens)]
    exact ⟨_, _, rfl, by simp, balanced.reverse⟩
  have passed := chainLength?_passed (inside.reverse ++ [opener]) before.reverse
  simp only [List.length_append, List.length_reverse, List.length_singleton,
    List.append_assoc, List.singleton_append] at passed
  have backwards :
      (before ++ (opener :: inside ++ [closer])).reverse =
        closer :: (inside.reverse ++ opener :: before.reverse) := by
    simp
  rw [backwards, chainLength?]
  simp only [opens, found]
  rw [passed, Option.map_map]
  congr 1
  funext length
  simp only [Function.comp_apply, List.length_append, List.length_cons, List.length_nil]
  omega

end Linked

theorem chainLength?_of_isBlank
    {c : Char}
    {rest : Text}
    (blank : isBlank c = true) :
    chainLength? 0 (c :: rest) = some 0 := by
  have notCloser : openerOf? c = none := by
    unfold openerOf?
    split
    · cases blank
    · cases blank
    · rfl
  simp [chainLength?, notCloser, isChainChar_of_isBlank blank]

/-- What stands before a chain does not belong to one. -/
theorem isChainChar_of_chainLength?
    {skip length : Nat}
    {text : Text}
    {c : Char}
    (found : chainLength? skip text = some length)
    (before : text[length]? = some c) :
    isChainChar c = false := by
  induction text generalizing skip length with
  | nil => simp at before
  | cons d rest inductionHypothesis =>
      have further
          {next : Nat}
          (inRest : (chainLength? next rest).map (· + 1) = some length) :
          isChainChar c = false := by
        obtain ⟨shorter, foundRest, rfl⟩ := Option.map_eq_some_iff.mp inRest
        exact inductionHypothesis foundRest before
      cases skip with
      | succ skip => exact further found
      | zero =>
          unfold chainLength? at found
          split at found
          · split at found
            · exact further found
            · cases found
          · split at found
            · exact further found
            · next notChain =>
                cases found
                cases before
                simpa using notChain

/-! ## Snapshot calls -/

theorem isBlank_of_isAccess
    {c : Char}
    (isAccess : isAccess c = true) :
    isBlank c = false := by
  simp only [Receiver.isAccess, Bool.or_eq_true, beq_iff_eq] at isAccess
  rcases isAccess with rfl | rfl <;> rfl

/-- What leads on to a member is taken away behind a character of another kind. -/
theorem withoutAccess_append_cons
    (kept rest : Text)
    {c : Char}
    (other : isAccess c = false)
    (notBlank : isBlank c = false) :
    withoutAccess (kept ++ c :: rest) = kept ++ c :: withoutAccess rest := by
  have trimmed : trimEnd (kept ++ c :: rest) = kept ++ c :: trimEnd rest :=
    dropEndWhile_append_cons kept rest notBlank
  have dropped :
      dropEndWhile isAccess (kept ++ c :: trimEnd rest) =
        kept ++ c :: dropEndWhile isAccess (trimEnd rest) :=
    dropEndWhile_append_cons kept (trimEnd rest) other
  rw [withoutAccess, trimmed]
  exact (congrArg trimEnd dropped).trans (dropEndWhile_append_cons kept _ notBlank)

/-- Blanks, then dots and question marks, then blanks again are taken away as a whole. -/
theorem withoutAccess_eq_nil
    {blanks access last : Text}
    (areBlank : ∀ c ∈ blanks, isBlank c = true)
    (leadsOn : ∀ c ∈ access, isAccess c = true)
    (lastBlank : ∀ c ∈ last, isBlank c = true) :
    withoutAccess (blanks ++ access ++ last) = [] := by
  have nothing {text : Text} (allBlank : ∀ c ∈ text, isBlank c = true) : trimEnd text = [] :=
    @dropEndWhile_append_of_pos isBlank [] text allBlank
  have trimmed : trimEnd (blanks ++ access ++ last) = trimEnd (blanks ++ access) :=
    dropEndWhile_append_of_pos _ lastBlank
  rw [withoutAccess, trimmed]
  rcases List.eq_nil_or_concat access with rfl | ⟨others, c, rfl⟩
  · rw [List.append_nil, nothing areBlank]
    rfl
  · rw [List.concat_eq_append] at leadsOn ⊢
    rw [← List.append_assoc, trimEnd_concat (isBlank_of_isAccess (leadsOn c (by simp))),
      List.append_assoc]
    have dropped : dropEndWhile isAccess (blanks ++ (others ++ [c])) = dropEndWhile isAccess blanks :=
      dropEndWhile_append_of_pos blanks leadsOn
    refine (congrArg trimEnd dropped).trans (nothing fun d member => areBlank d ?_)
    obtain ⟨behind, shape, _⟩ := eq_dropEndWhile_append isAccess blanks
    rw [shape]
    exact List.mem_append_left behind member

/-- What is taken away are dots and question marks, with blanks before and behind them. -/
theorem eq_withoutAccess_append
    (receiver : Text) :
    ∃ blanks access last,
      receiver = withoutAccess receiver ++ (blanks ++ access ++ last) ∧
        (∀ c ∈ blanks, isBlank c = true) ∧
        (∀ c ∈ access, isAccess c = true) ∧
        ∀ c ∈ last, isBlank c = true := by
  obtain ⟨last, lastShape, lastBlank⟩ := eq_dropEndWhile_append isBlank receiver
  obtain ⟨access, accessShape, leadsOn⟩ :=
    eq_dropEndWhile_append isAccess (trimEnd receiver)
  obtain ⟨blanks, blankShape, areBlank⟩ :=
    eq_dropEndWhile_append isBlank (dropEndWhile isAccess (trimEnd receiver))
  refine ⟨blanks, access, last, ?_, areBlank, leadsOn, lastBlank⟩
  calc receiver
      = trimEnd receiver ++ last := lastShape
    _ = dropEndWhile isAccess (trimEnd receiver) ++ access ++ last := by rw [← accessShape]
    _ = withoutAccess receiver ++ blanks ++ access ++ last := by
        rw [show withoutAccess receiver ++ blanks =
          dropEndWhile isAccess (trimEnd receiver) from blankShape.symm]
    _ = withoutAccess receiver ++ (blanks ++ access ++ last) := by
        simp only [List.append_assoc]

/-- A callee counts as a snapshot call when it ends in a name of one. -/
theorem endsInSnapshotCall_iff
    {callee : Text} :
    endsInSnapshotCall callee = true ↔
      ∃ front name,
        callee.trimEnd = front ++ name ∧
          name ∈ snapshotCalls ∧
          front.getLast?.any isWord = false := by
  simp only [endsInSnapshotCall, List.any_eq_true, Bool.and_eq_true, Bool.not_eq_true',
    Text.endsWith, List.isSuffixOf_iff_suffix]
  constructor
  · rintro ⟨name, isName, ⟨front, shape⟩, whole⟩
    refine ⟨front, name, shape.symm, isName, ?_⟩
    rw [← shape] at whole
    simpa using whole
  · rintro ⟨front, name, shape, isName, whole⟩
    refine ⟨name, isName, ⟨front, shape.symm⟩, ?_⟩
    rw [shape]
    simpa using whole

theorem isWord_of_mem_snapshotCalls
    {name : Text}
    (isSnapshot : name ∈ snapshotCalls) :
    ∀ c ∈ name, isWord c = true := by
  have words : (snapshotCalls.all fun name => name.all isWord) = true := by
    decide
  simp only [List.all_eq_true] at words
  exact words name isSnapshot

theorem isChainChar_of_isWord
    {c : Char}
    (word : isWord c = true) :
    isChainChar c = true := by
  simp [isChainChar, word]

theorem exists_last_of_mem_snapshotCalls
    {name : Text}
    (isSnapshot : name ∈ snapshotCalls) :
    ∃ kept c, name = kept ++ [c] ∧ isBlank c = false := by
  rcases List.eq_nil_or_concat name with rfl | ⟨kept, c, rfl⟩
  · have noName : [] ∉ snapshotCalls := by decide
    exact (noName isSnapshot).elim
  · rw [List.concat_eq_append] at isSnapshot ⊢
    refine ⟨kept, c, rfl, ?_⟩
    have word : isWord c = true := isWord_of_mem_snapshotCalls isSnapshot c (by simp)
    cases blank : isBlank c with
    | false => rfl
    | true =>
        have apart := isChainChar_of_isBlank blank
        simp [isChainChar_of_isWord word] at apart

/-- A receiver is read-only when it is a call, access aside, whose callee is a snapshot call. -/
theorem isReadOnly_iff_call
    {receiver : Text} :
    isReadOnly receiver = true ↔
      ∃ callee argument,
        withoutAccess receiver = callee ++ '(' :: argument ++ [')'] ∧
          Balanced argument ∧
          endsInSnapshotCall callee = true := by
  have parts (callee argument : Text) :
      (callee ++ '(' :: argument ++ [')']).take
          ((callee ++ '(' :: argument ++ [')']).length - (argument.length + 1) - 1) =
        callee := by
    have length :
        (callee ++ '(' :: argument ++ [')']).length - (argument.length + 1) - 1 =
          callee.length := by
      simp only [List.length_append, List.length_cons, List.length_nil]
      omega
    rw [length, List.append_assoc, List.take_left]
  constructor
  · intro readOnly
    simp only [isReadOnly] at readOnly
    split at readOnly
    · next inside backwards =>
        split at readOnly
        · next length found =>
            obtain ⟨reversed, outer, rfl, rfl, reads⟩ :=
              (groupLength?_eq_some_iff (by decide)).mp found
            have call :
                withoutAccess receiver = outer.reverse ++ '(' :: reversed.reverse ++ [')'] := by
              rw [← List.reverse_reverse (withoutAccess receiver), backwards]
              simp
            have callee := parts outer.reverse reversed.reverse
            rw [← call, List.length_reverse] at callee
            rw [callee] at readOnly
            refine ⟨outer.reverse, reversed.reverse, call, ?_, readOnly⟩
            rw [← leaves_reverse_iff, List.reverse_reverse]
            exact reads
        · cases readOnly
    · cases readOnly
  · rintro ⟨callee, argument, call, balanced, named⟩
    have group :
        groupLength? ')' '(' 1 (argument.reverse ++ '(' :: callee.reverse) =
          some (argument.length + 1) := by
      rw [groupLength?_eq_some_iff (by decide)]
      exact ⟨_, _, rfl, by simp, leaves_reverse_iff.mpr balanced⟩
    have backwards :
        (callee ++ '(' :: argument ++ [')']).reverse =
          ')' :: (argument.reverse ++ '(' :: callee.reverse) := by
      simp
    rw [isReadOnly, call, backwards]
    simp only [group, parts, named]

/-- A snapshot call with what leads on to a member is read-only. -/
theorem isReadOnly_of_call
    {callee argument blanks access last : Text}
    (balanced : Balanced argument)
    (areBlank : ∀ c ∈ blanks, isBlank c = true)
    (leadsOn : ∀ c ∈ access, isAccess c = true)
    (lastBlank : ∀ c ∈ last, isBlank c = true)
    (named : endsInSnapshotCall callee = true) :
    isReadOnly (callee ++ '(' :: argument ++ ')' :: (blanks ++ access ++ last)) = true := by
  refine isReadOnly_iff_call.mpr ⟨callee, argument, ?_, balanced, named⟩
  rw [withoutAccess_append_cons _ _ (by decide) (by decide),
    withoutAccess_eq_nil areBlank leadsOn lastBlank]

/-- A receiver that is read-only is a snapshot call with what leads on to a member. -/
theorem exists_call_of_isReadOnly
    {receiver : Text}
    (readOnly : isReadOnly receiver = true) :
    ∃ callee argument blanks access last,
      receiver = callee ++ '(' :: argument ++ ')' :: (blanks ++ access ++ last) ∧
        Balanced argument ∧
        (∀ c ∈ blanks, isBlank c = true) ∧
        (∀ c ∈ access, isAccess c = true) ∧
        (∀ c ∈ last, isBlank c = true) ∧
        endsInSnapshotCall callee = true := by
  obtain ⟨callee, argument, call, balanced, named⟩ := isReadOnly_iff_call.mp readOnly
  obtain ⟨blanks, access, last, shape, areBlank, leadsOn, lastBlank⟩ :=
    eq_withoutAccess_append receiver
  refine ⟨callee, argument, blanks, access, last, ?_, balanced, areBlank, leadsOn, lastBlank,
    named⟩
  rw [List.append_cons, ← call]
  exact shape

/-! ## Receivers in the arguments of a call -/

section Floor

variable {text : Text} {offset floor : Nat}

/--
Behind an opening parenthesis, the chain goes back from characters that it passes
over as far as the characters before them lead it, or up to the parenthesis.
-/
theorem chain_cases
    (opened : text[floor - 1]? = some '(')
    (positive : 0 < floor)
    (ordered : floor ≤ offset)
    {before taken : Text}
    (shape : (text.take offset).drop floor = before ++ taken)
    (linked : Linked taken) :
    (∃ length,
        chainLength? 0 before.reverse = some length ∧
          chain text offset floor = before.drop (before.length - length) ++ taken) ∨
      chainLength? 0 before.reverse = none ∧
        chain text offset floor = '(' :: before ++ taken := by
  have reach : (text.drop floor).take (offset - floor) = before ++ taken := by
    rw [← List.drop_take, shape]
  unfold chain
  simp only [reach, linked before]
  cases walked : chainLength? 0 before.reverse with
  | some length =>
      left
      refine ⟨length, rfl, ?_⟩
      simp only [Option.map_some, List.length_append]
      rw [show before.length + taken.length - (length + taken.length) =
        before.length - length by omega]
      exact List.drop_append_of_le_length (Nat.sub_le _ _)
  | none =>
      right
      refine ⟨rfl, ?_⟩
      have notZero : ¬ floor = 0 := by omega
      have inText : (text.take offset)[floor - 1]? = some '(' := by
        rw [List.getElem?_take_of_lt (by omega)]
        exact opened
      obtain ⟨within, same⟩ := List.getElem?_eq_some_iff.mp inText
      simp only [Option.map_none, notZero, ↓reduceIte]
      rw [List.drop_eq_getElem_cons within, same, Nat.sub_add_cancel positive, shape]
      rfl

/-- A blank before characters that a chain passes over ends it. -/
theorem chain_of_isBlank
    (opened : text[floor - 1]? = some '(')
    (positive : 0 < floor)
    (ordered : floor ≤ offset)
    {before taken : Text}
    {c : Char}
    (shape : (text.take offset).drop floor = before ++ [c] ++ taken)
    (linked : Linked taken)
    (blank : isBlank c = true) :
    chain text offset floor = taken := by
  have stops : chainLength? 0 (before ++ [c]).reverse = some 0 := by
    rw [List.reverse_append]
    exact chainLength?_of_isBlank blank
  rcases chain_cases opened positive ordered shape linked with
    ⟨length, walked, isChain⟩ | ⟨walked, _⟩
  · obtain rfl : 0 = length := Option.some.inj (stops.symm.trans walked)
    simpa using isChain
  · cases stops.symm.trans walked

theorem isChainChar_of_isAccess
    {c : Char}
    (access : isAccess c = true) :
    isChainChar c = true := by
  simp only [isAccess, Bool.or_eq_true, beq_iff_eq] at access
  rcases access with rfl | rfl <;> rfl

theorem Linked.call
    {argument access : Text}
    (balanced : Balanced argument)
    (leadsOn : ∀ c ∈ access, isAccess c = true) :
    Linked ('(' :: argument ++ ')' :: access) := by
  have inChain :
      ∀ c ∈ access, isChainChar c = true := by
    intro c member
    exact isChainChar_of_isAccess (leadsOn c member)
  rw [List.append_cons]
  exact (Linked.group rfl balanced).append (.of_isChainChar inChain)

theorem CountedSnapshot.isReadOnly
    (opened : text[floor - 1]? = some '(')
    (positive : 0 < floor)
    (ordered : floor ≤ offset)
    {front name argument access : Text}
    (snapshot : CountedSnapshot text floor offset front name argument access) :
    isReadOnly (chain text offset floor) = true := by
  obtain ⟨shape, isSnapshot, whole, balanced, leadsOn⟩ := snapshot
  obtain ⟨kept, last, nameShape, notBlank⟩ := exists_last_of_mem_snapshotCalls isSnapshot
  have linked : Linked (name ++ ('(' :: argument ++ ')' :: access)) := by
    refine Linked.append (.of_isChainChar ?_) (.call balanced leadsOn)
    intro c member
    exact isChainChar_of_isWord (isWord_of_mem_snapshotCalls isSnapshot c member)
  -- Whatever the chain takes before the name, the name stays a word of its own.
  have decides
      (lead : Text)
      (leadWhole : lead.getLast?.any isWord = false) :
      Receiver.isReadOnly (lead ++ (name ++ ('(' :: argument ++ ')' :: access))) = true := by
    have named : endsInSnapshotCall (lead ++ name) = true := by
      refine endsInSnapshotCall_iff.mpr ⟨lead, name, ?_, isSnapshot, leadWhole⟩
      rw [nameShape, ← List.append_assoc]
      exact trimEnd_concat notBlank
    have readOnly := @isReadOnly_of_call (lead ++ name) argument [] access [] balanced
      (List.forall_mem_nil _) leadsOn (List.forall_mem_nil _) named
    rw [List.nil_append, List.append_nil] at readOnly
    rwa [← List.append_assoc, ← List.append_assoc]
  have reach :
      (text.take offset).drop floor = front ++ (name ++ ('(' :: argument ++ ')' :: access)) := by
    simpa only [List.append_assoc] using shape
  rcases chain_cases opened positive ordered reach linked with
    ⟨length, _, isChain⟩ | ⟨_, isChain⟩
  · rw [isChain]
    apply decides
    rw [List.getLast?_drop]
    split
    · rfl
    · exact whole
  · rw [isChain]
    apply decides
    cases front with
    | nil => rfl
    | cons c front => rwa [List.getLast?_cons_cons]

/-- A chain that is a read-only receiver is a call that stands before the offset. -/
theorem exists_call_of_isReadOnly_chain
    (opened : text[floor - 1]? = some '(')
    (positive : 0 < floor)
    (ordered : floor ≤ offset)
    (readOnly : isReadOnly (chain text offset floor) = true) :
    ∃ before callee argument access,
      (text.take offset).drop floor = before ++ ('(' :: argument ++ ')' :: access) ∧
        chain text offset floor = callee ++ ('(' :: argument ++ ')' :: access) ∧
        Balanced argument ∧
        (∀ c ∈ access, isAccess c = true) ∧
        endsInSnapshotCall callee = true := by
  obtain ⟨callee, argument, blanks, dots, last, isChain, balanced, areBlank, isDots, lastBlank,
    named⟩ := exists_call_of_isReadOnly readOnly
  have leadsOn : ∀ c ∈ blanks ++ dots ++ last, isAccess c = true ∨ isBlank c = true := by
    refine List.forall_mem_append.mpr ⟨List.forall_mem_append.mpr ⟨?_, ?_⟩, ?_⟩
    · exact fun c member => Or.inr (areBlank c member)
    · exact fun c member => Or.inl (isDots c member)
    · exact fun c member => Or.inr (lastBlank c member)
  generalize blanks ++ dots ++ last = between at isChain leadsOn
  rw [List.append_assoc] at isChain
  have reach :
      ∃ before,
        (text.take offset).drop floor = before ++ ('(' :: argument ++ ')' :: between) := by
    rcases chain_cases opened positive ordered (List.append_nil _).symm .nil with
      ⟨length, _, fromReach⟩ | ⟨_, beyond⟩
    · rw [List.append_nil] at fromReach
      have parts :=
        (List.take_append_drop (((text.take offset).drop floor).length - length)
          ((text.take offset).drop floor)).symm
      rw [← fromReach, isChain, ← List.append_assoc] at parts
      exact ⟨_, parts⟩
    · rw [List.append_nil] at beyond
      cases callee with
      | nil => cases named
      | cons c callee =>
          have same := beyond.symm.trans isChain
          exact ⟨callee, (List.cons.inj same).2⟩
  obtain ⟨before, reach⟩ := reach
  refine ⟨before, callee, argument, between, reach, isChain, balanced, ?_, named⟩
  -- A blank behind the call would end the chain before the call.
  obtain ⟨access, betweenShape, isAccess⟩ := eq_dropEndWhile_append Receiver.isAccess between
  rcases List.eq_nil_or_concat (dropEndWhile Receiver.isAccess between) with
    empty | ⟨left, b, concat⟩
  · rw [betweenShape, empty]
    exact isAccess
  · rw [List.concat_eq_append] at concat
    have notAccess := belongs_last_dropEndWhile concat
    rw [concat] at betweenShape
    have blank : isBlank b = true := by
      rcases leadsOn b (by rw [betweenShape]; simp) with access | blank
      · simp [notAccess] at access
      · exact blank
    have inChain :
        ∀ c ∈ access, isChainChar c = true := by
      intro c member
      exact isChainChar_of_isAccess (isAccess c member)
    have shape :
        (text.take offset).drop floor =
          before ++ ('(' :: argument ++ ')' :: left) ++ [b] ++ access := by
      rw [reach, betweenShape]
      simp
    have ends := chain_of_isBlank opened positive ordered shape (.of_isChainChar inChain) blank
    have lengths := congrArg List.length (ends.symm.trans isChain)
    rw [betweenShape] at lengths
    simp only [List.length_append, List.length_cons] at lengths
    omega

/-- The callee in a chain does not end in a blank, which would end the chain. -/
theorem trimEnd_callee
    (opened : text[floor - 1]? = some '(')
    (positive : 0 < floor)
    (ordered : floor ≤ offset)
    {before callee taken : Text}
    (shape : (text.take offset).drop floor = before ++ taken)
    (linked : Linked taken)
    (isChain : chain text offset floor = callee ++ taken) :
    callee.trimEnd = callee := by
  rcases List.eq_nil_or_concat callee with rfl | ⟨lead, c, rfl⟩
  · rfl
  · rw [List.concat_eq_append] at isChain ⊢
    cases blank : isBlank c with
    | false => exact trimEnd_concat blank
    | true =>
        have beforeShape : ∃ init, before = init ++ [c] := by
          rcases chain_cases opened positive ordered shape linked with
            ⟨length, _, same⟩ | ⟨walked, same⟩
          · rw [isChain, List.append_cancel_right_eq] at same
            refine ⟨before.take (before.length - length) ++ lead, ?_⟩
            rw [List.append_assoc, same, List.take_append_drop]
          · rw [isChain, List.append_cancel_right_eq] at same
            cases lead with
            | nil =>
                obtain rfl : [] = before := (List.cons.inj same).2
                cases walked
            | cons d lead => exact ⟨lead, (List.cons.inj same).2.symm⟩
        obtain ⟨init, rfl⟩ := beforeShape
        have ends := chain_of_isBlank opened positive ordered shape linked blank
        have lengths := congrArg List.length (isChain.symm.trans ends)
        simp only [List.length_append, List.length_singleton] at lengths
        omega

/-- The name that a chain begins with is no part of a longer word of the text. -/
theorem isWord_before_name
    {before front name : Text}
    {length : Nat}
    (walked : chainLength? 0 before.reverse = some length)
    (isChain : before.drop (before.length - length) = front ++ name)
    (whole : front.getLast?.any isWord = false) :
    (before.take (before.length - length) ++ front).getLast?.any isWord = false := by
  rw [List.getLast?_append]
  cases lastOfFront : front.getLast? with
  | some c =>
      rw [lastOfFront] at whole
      exact whole
  | none =>
      obtain rfl : front = [] := List.getLast?_eq_none_iff.mp lastOfFront
      rw [List.nil_append] at isChain
      cases lastOfLead : (before.take (before.length - length)).getLast? with
      | none => rfl
      | some c =>
          obtain ⟨lead, leadShape⟩ := List.getLast?_eq_some_iff.mp lastOfLead
          have parts := List.take_append_drop (before.length - length) before
          rw [leadShape, isChain] at parts
          have chainSize := congrArg List.length isChain
          have totalSize := congrArg List.length parts
          simp only [List.length_drop, List.length_append, List.length_singleton]
            at chainSize totalSize
          obtain rfl : length = name.length := by omega
          have here : before.reverse[name.length]? = some c := by
            rw [← parts]
            simp
          have notChain := isChainChar_of_chainLength? walked here
          cases word : isWord c with
          | false => exact word
          | true => simp [isChainChar_of_isWord word] at notChain

/-- A receiver that is read-only is a counted snapshot. -/
theorem exists_countedSnapshot
    (opened : text[floor - 1]? = some '(')
    (positive : 0 < floor)
    (ordered : floor ≤ offset)
    (readOnly : isReadOnly (chain text offset floor) = true) :
    ∃ front name argument access,
      CountedSnapshot text floor offset front name argument access := by
  obtain ⟨before, callee, argument, access, shape, isChain, balanced, leadsOn, named⟩ :=
    exists_call_of_isReadOnly_chain opened positive ordered readOnly
  have linked : Linked ('(' :: argument ++ ')' :: access) := .call balanced leadsOn
  obtain ⟨front, name, calleeShape, isSnapshot, whole⟩ := endsInSnapshotCall_iff.mp named
  rw [trimEnd_callee opened positive ordered shape linked isChain] at calleeShape
  rcases chain_cases opened positive ordered shape linked with
    ⟨length, walked, same⟩ | ⟨_, same⟩
  · rw [isChain, List.append_cancel_right_eq, calleeShape] at same
    have parts := List.take_append_drop (before.length - length) before
    rw [← same] at parts
    refine ⟨before.take (before.length - length) ++ front, name, argument, access,
      ?_, isSnapshot, isWord_before_name walked same.symm whole, balanced, leadsOn⟩
    calc (text.take offset).drop floor
        = before ++ ('(' :: argument ++ ')' :: access) := shape
      _ = before.take (before.length - length) ++ (front ++ name) ++
            ('(' :: argument ++ ')' :: access) := by rw [parts]
      _ = before.take (before.length - length) ++ front ++ name ++
            '(' :: argument ++ ')' :: access := by simp only [List.append_assoc]
  -- The chain goes on to the parenthesis that opens the arguments, which is in no name.
  · rw [isChain, List.append_cancel_right_eq, calleeShape] at same
    cases front with
    | nil =>
        rw [List.nil_append] at same
        have word := isWord_of_mem_snapshotCalls isSnapshot '(' (by rw [same]; simp)
        cases word
    | cons c front =>
        have beforeShape : front ++ name = before := (List.cons.inj same).2
        refine ⟨front, name, argument, access, ?_, isSnapshot, ?_, balanced, leadsOn⟩
        · rw [shape, ← beforeShape]
          simp only [List.append_assoc]
        · cases front with
          | nil => rfl
          | cons d front => rwa [List.getLast?_cons_cons] at whole

/-- A receiver is read-only exactly when a counted snapshot stands before the offset. -/
theorem isReadOnly_chain_iff
    (opened : text[floor - 1]? = some '(')
    (positive : 0 < floor)
    (ordered : floor ≤ offset) :
    isReadOnly (chain text offset floor) = true ↔
      ∃ front name argument access,
        CountedSnapshot text floor offset front name argument access := by
  constructor
  · exact exists_countedSnapshot opened positive ordered
  · rintro ⟨front, name, argument, access, snapshot⟩
    exact snapshot.isReadOnly opened positive ordered

end Floor

end TestAudit.Receiver
