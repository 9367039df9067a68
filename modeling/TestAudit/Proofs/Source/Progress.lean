import TestAudit.Proofs.Loop
import TestAudit.Proofs.Source.LiteralStop
import TestAudit.Proofs.Source.Masking
import TestAudit.Proofs.Source.Search

namespace TestAudit.Language

/-!
# Loops over a text

Masking, the way to a closing parenthesis and the search for calls go over a text in
loops. All that moves them on is where a literal stops, or one character where none
begins, so each turn brings them nearer to the end of what they read: they terminate on
every text, and end with the masked text, the span of a call and all spans.
-/

/-- Where masking stands, and the text as far as it is masked. -/
structure MaskState where
  offset : Nat
  masked : Text

/-- One turn of masking. -/
inductive MaskTurn (language : Language) (text : Text) : MaskState → MaskState → Prop where
  /-- A literal is masked as a whole. -/
  | literal {state : MaskState} {stop : Nat} :
      state.offset < text.length →
      language.literalStop? text state.offset = some stop →
      MaskTurn language text state
        { offset := stop
          masked :=
            state.masked.take state.offset ++
              language.maskLiteral ((text.drop state.offset).take (stop - state.offset)) ++
              state.masked.drop stop }
  /-- A character of code stays. -/
  | code {state : MaskState} :
      state.offset < text.length →
      language.literalStop? text state.offset = none →
      MaskTurn language text state { state with offset := state.offset + 1 }

/-- Where the way to a closing parenthesis stands, and how many are open. -/
structure CloseState where
  offset : Nat
  depth : Nat

/-- One turn on the way to a closing parenthesis, within a limit. -/
inductive CloseTurn (language : Language) (text : Text) (limit : Nat) :
    CloseState → CloseState → Prop where
  /-- A literal is passed over, also across the limit. -/
  | literal {state : CloseState} {stop : Nat} :
      state.offset < limit →
      language.literalStop? text state.offset = some stop →
      CloseTurn language text limit state { state with offset := stop }
  /-- One more parenthesis is opened. -/
  | opened {state : CloseState} :
      state.offset < limit →
      language.literalStop? text state.offset = none →
      text[state.offset]? = some '(' →
      CloseTurn language text limit state ⟨state.offset + 1, state.depth + 1⟩
  /-- A parenthesis is closed that is not the last one. -/
  | closed {state : CloseState} :
      state.offset < limit →
      language.literalStop? text state.offset = none →
      text[state.offset]? = some ')' →
      state.depth ≠ 1 →
      CloseTurn language text limit state ⟨state.offset + 1, state.depth - 1⟩
  /-- Any other character of code changes nothing. -/
  | other {state : CloseState} {c : Char} :
      state.offset < limit →
      language.literalStop? text state.offset = none →
      text[state.offset]? = some c →
      c ≠ '(' →
      c ≠ ')' →
      CloseTurn language text limit state { state with offset := state.offset + 1 }

/-- The span of a call whose way to the closing parenthesis ended in a state. -/
def spanEndedIn (limit callStart start : Nat) (state : CloseState) : CallSpan :=
  if state.offset < limit then
    { callStart, start, stop := state.offset, truncated := false }
  else
    { callStart, start, stop := limit, truncated := true }

/-- Where the walk to an opening stands, and whether a literal hides the opening. -/
structure WalkState where
  offset : Nat
  hidden : Bool

/-- One turn of the walk over what stands before an opening. -/
inductive WalkTurn (language : Language) (text : Text) (opening : Nat) :
    WalkState → WalkState → Prop where
  /-- A literal is passed over; it hides the opening if it goes on behind it. -/
  | literal {state : WalkState} {stop : Nat} :
      state.offset < opening →
      language.literalStop? text state.offset = some stop →
      WalkTurn language text opening state ⟨stop, state.hidden || decide (opening < stop)⟩
  /-- A character of code is passed over. -/
  | code {state : WalkState} :
      state.offset < opening →
      language.literalStop? text state.offset = none →
      WalkTurn language text opening state { state with offset := state.offset + 1 }

/-- Where the search for calls stands, and the spans found so far. -/
structure SearchState where
  offset : Nat
  spans : List CallSpan

/-- One turn of the search: a walk to the next opening, and to where its call closes. -/
inductive SearchTurn (language : Language) (text : Text) (window : Nat) :
    SearchState → SearchState → Prop where
  /-- A literal hides the opening, and the search goes on behind the literal. -/
  | hidden {state : SearchState} {opening start : Nat} {walked : WalkState} :
      state.offset ≤ opening →
      language.OpensCall text opening start →
      language.NoOpening text state.offset opening →
      Loop.Ends (language.WalkTurn text opening) ⟨state.offset, false⟩ walked →
      walked.hidden = true →
      SearchTurn language text window state { state with offset := walked.offset }
  /-- The opening is code, and the search goes on where the span of its call stops. -/
  | found {state : SearchState} {opening start limit : Nat}
      {walked : WalkState} {closing : CloseState} {span : CallSpan} :
      state.offset ≤ opening →
      language.OpensCall text opening start →
      language.NoOpening text state.offset opening →
      Loop.Ends (language.WalkTurn text opening) ⟨state.offset, false⟩ walked →
      walked.hidden = false →
      limit = min text.length (start + window) →
      Loop.Ends (language.CloseTurn text limit) ⟨start, 1⟩ closing →
      span = spanEndedIn limit opening start closing →
      SearchTurn language text window state
        ⟨max span.stop start, state.spans ++ [span]⟩

variable {language : Language} {text : Text} {window first opening : Nat}

/-! ## Literals and tokens -/

theorem literalLength?_of_literalStop?
    {stop : Nat}
    (stops : language.literalStop? text first = some stop) :
    ∃ length, language.literalLength? (text.drop first) = some length ∧ first + length = stop :=
  Option.map_eq_some_iff.mp stops

theorem literalLength?_eq_none_of_literalStop?
    (plain : language.literalStop? text first = none) :
    language.literalLength? (text.drop first) = none :=
  Option.map_eq_none_iff.mp plain

theorem tokenEnds_of_literalStop?
    {stop : Nat}
    (stops : language.literalStop? text first = some stop) :
    language.TokenEnds text first stop := by
  obtain ⟨length, literal, rfl⟩ := literalLength?_of_literalStop? stops
  exact .literal literal

theorem tokenEnds_of_plain
    (within : first < text.length)
    (plain : language.literalStop? text first = none) :
    language.TokenEnds text first (first + 1) :=
  .code within (literalLength?_eq_none_of_literalStop? plain)

/-! ## Masking -/

/-- What masking keeps: up to where it stands the text is masked, and from there on as it was. -/
structure MaskedUpTo (language : Language) (text : Text) (state : MaskState) : Prop where
  boundary : language.Boundary text state.offset
  within : state.offset ≤ text.length
  masked :
    state.masked = (language.mask text).take state.offset ++ text.drop state.offset

theorem take_mask_of_literal
    {length : Nat}
    (boundary : language.Boundary text first)
    (literal : language.literalLength? (text.drop first) = some length) :
    (language.mask text).take (first + length) =
      (language.mask text).take first ++
        language.maskLiteral ((text.drop first).take length) := by
  have bounds := literalLength?_bounds literal
  rw [List.take_add, drop_mask_of_boundary boundary, mask_drop_of_literal literal, List.take_left']
  rw [length_maskLiteral, List.length_take, Nat.min_eq_left bounds.2]

theorem take_mask_append_of_code
    (code : language.Code text first) :
    (language.mask text).take (first + 1) ++ text.drop (first + 1) =
      (language.mask text).take first ++ text.drop first := by
  rw [List.take_add_one, getElem?_mask_of_code code, List.getElem?_eq_getElem code.within,
    List.drop_eq_getElem_cons code.within, List.append_assoc]
  rfl

theorem MaskedUpTo.of_maskTurn
    {state next : MaskState}
    (invariant : language.MaskedUpTo text state)
    (turn : language.MaskTurn text state next) :
    language.MaskedUpTo text next ∧
      text.length - next.offset < text.length - state.offset := by
  obtain ⟨boundary, _, masked⟩ := invariant
  cases turn with
  | literal within stops =>
      have token := tokenEnds_of_literalStop? stops
      have after := token.lt
      obtain ⟨length, literal, rfl⟩ := literalLength?_of_literalStop? stops
      have upToHere : ((language.mask text).take state.offset).length = state.offset := by
        rw [List.length_take, length_mask, Nat.min_eq_left (Nat.le_of_lt within)]
      refine ⟨⟨boundary.tail token, token.le_length, ?_⟩, by simp only; omega⟩
      simp only
      rw [take_mask_of_literal boundary literal, masked, List.take_left' upToHere,
        Nat.add_sub_cancel_left, ← List.drop_drop, List.drop_left' upToHere, List.drop_drop]
  | code within plain =>
      have token := tokenEnds_of_plain within plain
      have code : language.Code text state.offset :=
        ⟨boundary, within, literalLength?_eq_none_of_literalStop? plain⟩
      refine ⟨⟨boundary.tail token, token.le_length, ?_⟩, by simp only; omega⟩
      rw [masked, take_mask_append_of_code code]

/-- Masking ends at the end of the text. -/
theorem length_le_of_isEnd_maskTurn
    {state : MaskState}
    (isEnd : Loop.IsEnd (language.MaskTurn text) state) :
    text.length ≤ state.offset := by
  apply Nat.le_of_not_lt
  intro within
  cases stops : language.literalStop? text state.offset with
  | some stop => exact isEnd _ (.literal within stops)
  | none => exact isEnd _ (.code within stops)

theorem terminates_maskTurn
    (language : Language)
    (text : Text) :
    Loop.Terminates (language.MaskTurn text) ⟨0, text⟩ text.length fun last =>
      last.masked = language.mask text := by
  have begins : language.MaskedUpTo text ⟨0, text⟩ := ⟨.refl, Nat.zero_le _, rfl⟩
  refine Loop.terminates_of_invariant (language.MaskedUpTo text)
    (fun state => text.length - state.offset) (fun _ _ => MaskedUpTo.of_maskTurn) begins
    (Nat.sub_le _ _) ?_
  intro last invariant isEnd
  have beyond := length_le_of_isEnd_maskTurn isEnd
  rw [invariant.masked, List.drop_eq_nil_of_le beyond, List.append_nil,
    List.take_of_length_le (by simpa using beyond)]

/-! ## The way to a closing parenthesis -/

/-- What the way to a closing parenthesis keeps: the one to be found is still ahead. -/
structure ClosesAhead
    (language : Language) (text : Text) (start : Nat) (state : CloseState) : Prop where
  isOpen : 0 < state.depth
  ahead :
    ∀ close,
      language.Closes text 1 start close ↔
        language.Closes text state.depth state.offset close

theorem ClosesAhead.of_closeTurn
    {start limit : Nat}
    {state next : CloseState}
    (invariant : language.ClosesAhead text start state)
    (turn : language.CloseTurn text limit state next) :
    language.ClosesAhead text start next ∧ limit - next.offset < limit - state.offset := by
  obtain ⟨isOpen, ahead⟩ := invariant
  cases turn with
  | literal near stops =>
      have after := (tokenEnds_of_literalStop? stops).lt
      obtain ⟨length, literal, rfl⟩ := literalLength?_of_literalStop? stops
      refine ⟨⟨isOpen, ?_⟩, by simp only; omega⟩
      intro close
      rw [ahead, Closes.iff_of_literal literal]
  | opened near plain isOpening =>
      refine ⟨⟨Nat.succ_pos _, ?_⟩, by simp only; omega⟩
      intro close
      rw [ahead, Closes.iff_of_opened (literalLength?_eq_none_of_literalStop? plain) isOpening]
  | closed near plain isClosing notLast =>
      obtain ⟨depth, isDepth⟩ : ∃ depth, state.depth = depth + 2 :=
        ⟨state.depth - 2, by omega⟩
      refine ⟨⟨by simp only; omega, ?_⟩, by simp only; omega⟩
      intro close
      rw [ahead, isDepth,
        Closes.iff_of_closed (literalLength?_eq_none_of_literalStop? plain) isClosing]
      rfl
  | other near plain here notOpening notClosing =>
      refine ⟨⟨isOpen, ?_⟩, by simp only; omega⟩
      intro close
      rw [ahead, Closes.iff_of_other (literalLength?_eq_none_of_literalStop? plain) here
        notOpening notClosing]

/-- Before the limit, only the last closing parenthesis ends the way. -/
theorem closes_of_isEnd_closeTurn
    {limit : Nat}
    {state : CloseState}
    (isEnd : Loop.IsEnd (language.CloseTurn text limit) state)
    (near : state.offset < limit)
    (within : state.offset < text.length) :
    state.depth = 1 ∧ language.Closes text 1 state.offset state.offset := by
  have here := List.getElem?_eq_getElem within
  cases stops : language.literalStop? text state.offset with
  | some stop => exact (isEnd _ (.literal near stops)).elim
  | none =>
      by_cases isOpening : text[state.offset] = '('
      · exact (isEnd _ (.opened near stops (isOpening ▸ here))).elim
      · by_cases isClosing : text[state.offset] = ')'
        · rw [isClosing] at here
          by_cases isLast : state.depth = 1
          · exact ⟨isLast, .here (literalLength?_eq_none_of_literalStop? stops) here⟩
          · exact (isEnd _ (.closed near stops here isLast)).elim
        · exact (isEnd _ (.other near stops here isOpening isClosing)).elim

theorem reachesFar_spanEndedIn
    {start limit callStart : Nat}
    {state : CloseState}
    (isLimit : limit = min text.length (start + window))
    (invariant : language.ClosesAhead text start state)
    (isEnd : Loop.IsEnd (language.CloseTurn text limit) state) :
    language.ReachesFar text window (spanEndedIn limit callStart start state) := by
  unfold spanEndedIn
  split
  · next near =>
      obtain ⟨isLast, closes⟩ := closes_of_isEnd_closeTurn isEnd near (by omega)
      refine .closed ((invariant.ahead _).mpr ?_) (by omega)
      rw [isLast]
      exact closes
  · next far =>
      rw [isLimit]
      apply ReachesFar.cut
      intro close closes
      have further := ((invariant.ahead close).mp closes).codeFrom
      have notBefore := further.le
      have within := further.within
      omega

theorem terminates_closeTurn
    {start limit : Nat}
    (isLimit : limit = min text.length (start + window)) :
    Loop.Terminates (language.CloseTurn text limit) ⟨start, 1⟩ (limit - start) fun last =>
      ∀ callStart,
        language.ReachesFar text window (spanEndedIn limit callStart start last) := by
  have begins : language.ClosesAhead text start ⟨start, 1⟩ := ⟨Nat.one_pos, fun _ => Iff.rfl⟩
  refine Loop.terminates_of_invariant (language.ClosesAhead text start)
    (fun state => limit - state.offset) (fun _ _ => ClosesAhead.of_closeTurn) begins
    (Nat.le_refl _) ?_
  intro last invariant isEnd callStart
  exact reachesFar_spanEndedIn isLimit invariant isEnd

/-! ## The walk to an opening -/

/-- Where a walk to an opening stands: before it, at it, or behind a literal that hides it. -/
inductive Walked (language : Language) (text : Text) (first opening : Nat) :
    WalkState → Prop where
  /-- The opening is not passed. -/
  | ahead {offset : Nat} :
      language.Reads text first offset →
      offset ≤ opening →
      Walked language text first opening ⟨offset, false⟩
  /-- The literal that was passed last goes on behind the opening. -/
  | hidden {literal stop : Nat} :
      language.Reads text first literal →
      literal < opening →
      language.literalStop? text literal = some stop →
      opening < stop →
      Walked language text first opening ⟨stop, true⟩

theorem Walked.of_walkTurn
    (within : opening ≤ text.length)
    {state next : WalkState}
    (invariant : language.Walked text first opening state)
    (turn : language.WalkTurn text opening state next) :
    language.Walked text first opening next ∧
      opening - next.offset < opening - state.offset := by
  cases invariant with
  | @ahead offset reads =>
      cases turn with
      | @literal stop near stops =>
          have token : language.TokenEnds text offset stop := tokenEnds_of_literalStop? stops
          have before : offset < opening := near
          have after := token.lt
          refine ⟨?_, by simp only; omega⟩
          by_cases hides : opening < stop
          · simpa [hides] using Walked.hidden reads near stops hides
          · simpa [hides] using Walked.ahead (reads.tail token) (Nat.le_of_not_lt hides)
      | code near plain =>
          have before : offset < opening := near
          have token := tokenEnds_of_plain (Nat.lt_of_lt_of_le before within) plain
          exact ⟨.ahead (reads.tail token) before, by simp only; omega⟩
  | @hidden literal stop _ _ _ behind =>
      -- The walk is over: it stands behind the opening.
      have notNear : ¬ stop < opening := by omega
      cases turn with
      | literal near => exact (notNear near).elim
      | code near => exact (notNear near).elim

/-- A walk ends at the opening or behind it. -/
theorem le_of_isEnd_walkTurn
    {state : WalkState}
    (isEnd : Loop.IsEnd (language.WalkTurn text opening) state) :
    opening ≤ state.offset := by
  apply Nat.le_of_not_lt
  intro near
  cases stops : language.literalStop? text state.offset with
  | some stop => exact isEnd _ (.literal near stops)
  | none => exact isEnd _ (.code near stops)

theorem terminates_walkTurn
    (notBefore : first ≤ opening)
    (within : opening ≤ text.length) :
    Loop.Terminates (language.WalkTurn text opening) ⟨first, false⟩ (opening - first) fun last =>
      language.Walked text first opening last ∧ opening ≤ last.offset := by
  have begins : language.Walked text first opening ⟨first, false⟩ := .ahead .refl notBefore
  refine Loop.terminates_of_invariant (language.Walked text first opening)
    (fun state => opening - state.offset) (fun _ _ => Walked.of_walkTurn within) begins
    (Nat.le_refl _) ?_
  exact fun last walked isEnd => ⟨walked, le_of_isEnd_walkTurn isEnd⟩

/-! ## The search for calls -/

theorem spanEndedIn_begin
    (limit callStart start : Nat)
    (state : CloseState) :
    (spanEndedIn limit callStart start state).callStart = callStart ∧
      (spanEndedIn limit callStart start state).start = start := by
  unfold spanEndedIn
  split <;> exact ⟨rfl, rfl⟩

/-- What the loops inside one turn of the search do is one turn of it. -/
theorem SearchTurn.exists_turn
    {state next : SearchState}
    (isTurn : language.SearchTurn text window state next) :
    ∃ found,
      language.Turn text window state.offset found next.offset ∧
        next.spans = state.spans ++ found.toList := by
  cases isTurn with
  | hidden notBefore opens noOpening walk isHidden =>
      have within := Nat.le_of_lt (Nat.lt_of_lt_of_le opens.bounds.1 opens.bounds.2)
      obtain ⟨walked, _⟩ := (terminates_walkTurn notBefore within).result _ walk
      cases walked with
      | ahead => cases isHidden
      | hidden reads before stops behind =>
          obtain ⟨length, literal, rfl⟩ := literalLength?_of_literalStop? stops
          exact ⟨none, .hidden noOpening opens reads literal before behind, by simp⟩
  | @found opening start limit walked closing span notBefore opens noOpening walk isOpen isLimit
      close isSpan =>
      have within := Nat.le_of_lt (Nat.lt_of_lt_of_le opens.bounds.1 opens.bounds.2)
      obtain ⟨walkedThere, beyond⟩ := (terminates_walkTurn notBefore within).result _ walk
      cases walkedThere with
      | hidden => cases isOpen
      | @ahead offset reads notPast =>
          obtain rfl : opening = offset := Nat.le_antisymm beyond notPast
          have reaches := (terminates_closeTurn isLimit).result _ close opening
          obtain ⟨sameCall, sameStart⟩ := spanEndedIn_begin limit opening start closing
          rw [← isSpan] at reaches sameCall sameStart
          subst sameCall sameStart
          have stops := reaches.bounds opens.bounds.2
          refine ⟨some span, ?_, rfl⟩
          rw [Nat.max_eq_left stops.1]
          exact .found noOpening opens reads reaches

/-- As long as an opening is left, the loops inside one turn of the search end and make it. -/
theorem exists_searchTurn
    {state : SearchState}
    {offset start : Nat}
    (window : Nat)
    (opens : language.OpensCall text offset start)
    (after : state.offset ≤ offset) :
    ∃ next, language.SearchTurn text window state next := by
  obtain ⟨opening, nextStart, notBefore, nextOpens, noOpening⟩ := exists_next_opening opens after
  have within := Nat.le_of_lt (Nat.lt_of_lt_of_le nextOpens.bounds.1 nextOpens.bounds.2)
  obtain ⟨walked, walk⟩ :=
    (@terminates_walkTurn language text state.offset opening notBefore within).ends
  cases isHidden : walked.hidden with
  | true => exact ⟨_, .hidden notBefore nextOpens noOpening walk isHidden⟩
  | false =>
      obtain ⟨closing, close⟩ :=
        (@terminates_closeTurn language text window nextStart _ rfl).ends
      exact ⟨_, .found notBefore nextOpens noOpening walk isHidden rfl close rfl⟩

/-- What the search keeps: with what is found from where it stands, its spans are all there are. -/
def SpansUpTo (language : Language) (text : Text) (window : Nat) (state : SearchState) : Prop :=
  ∀ later,
    language.Searches text window state.offset later →
    language.Searches text window 0 (state.spans ++ later)

theorem SpansUpTo.of_searchTurn
    {state next : SearchState}
    (invariant : language.SpansUpTo text window state)
    (isTurn : language.SearchTurn text window state next) :
    language.SpansUpTo text window next ∧
      text.length - next.offset < text.length - state.offset := by
  obtain ⟨found, turn, spans⟩ := isTurn.exists_turn
  have progress := turn.progress
  refine ⟨?_, by omega⟩
  intro later searches
  rw [spans, List.append_assoc]
  exact invariant _ (.turn turn searches)

theorem terminates_searchTurn
    (language : Language)
    (text : Text)
    (window : Nat) :
    Loop.Terminates (language.SearchTurn text window) ⟨0, []⟩ text.length fun last =>
      last.spans = language.callSpans text window := by
  have begins : language.SpansUpTo text window ⟨0, []⟩ := fun _ searches => searches
  refine Loop.terminates_of_invariant (language.SpansUpTo text window)
    (fun state => text.length - state.offset) (fun _ _ => SpansUpTo.of_searchTurn) begins
    (Nat.sub_le _ _) ?_
  intro last invariant isEnd
  have noOpening : language.NoOpening text last.offset text.length := by
    intro offset start after _ opens
    obtain ⟨next, isTurn⟩ := exists_searchTurn window opens after
    exact isEnd next isTurn
  have searches := invariant [] (.done noOpening)
  rw [List.append_nil] at searches
  exact searches.foundFrom.unique (language.foundFrom_callSpans text window)

/-! ## All literals and all loops -/

/-- Where literals stop, at every offset of a text and behind it. -/
structure SkipsLiterals (language : Language) (text : Text) : Prop where
  beyond : ∀ offset, text.length ≤ offset → language.literalStop? text offset = none
  exact :
    ∀ offset stop,
      language.literalStop? text offset = some stop ↔
        ∃ form, language.formAt? text offset = some form ∧ form.StopsAt text offset stop
  covers :
    ∀ offset form,
      language.formAt? text offset = some form →
      ∃ stop, language.literalStop? text offset = some stop ∧ form.Covers text offset stop

/-- The loops over a text terminate, with the results of masking and of the search for calls. -/
structure LoopsTerminate (language : Language) (text : Text) : Prop where
  masking :
    Loop.Terminates (language.MaskTurn text) ⟨0, text⟩ text.length fun last =>
      last.masked = language.mask text
  closing :
    ∀ window start limit,
      limit = min text.length (start + window) →
      Loop.Terminates (language.CloseTurn text limit) ⟨start, 1⟩ (limit - start) fun last =>
        ∀ callStart length,
          callStart + length = start →
          start ≤ text.length →
          spanEndedIn limit callStart start last =
            language.spanAfter window callStart length (text.drop start)
  walking :
    ∀ first opening,
      first ≤ opening →
      opening ≤ text.length →
      Loop.Terminates (language.WalkTurn text opening) ⟨first, false⟩ (opening - first) fun last =>
        language.Walked text first opening last ∧ opening ≤ last.offset
  searching :
    ∀ window,
      Loop.Terminates (language.SearchTurn text window) ⟨0, []⟩ text.length fun last =>
        last.spans = language.callSpans text window

theorem skipsLiterals
    (language : Language)
    (text : Text) :
    language.SkipsLiterals text where
  beyond := by
    intro offset beyond
    cases stops : language.literalStop? text offset with
    | none => rfl
    | some stop =>
        have bounds := literalStop?_bounds stops
        omega
  exact := fun _ _ => literalStop?_eq_some_iff
  covers := by
    intro offset form begins
    obtain ⟨_, body, _, stops⟩ := exists_body_of_formAt? begins
    exact ⟨_, stops, covers_of_literalStop? begins stops⟩

theorem loopsTerminate
    (language : Language)
    (text : Text) :
    language.LoopsTerminate text where
  masking := terminates_maskTurn language text
  closing := by
    intro window start limit isLimit
    have terminates := @terminates_closeTurn language text window start limit isLimit
    refine ⟨terminates.bounded, terminates.ends, ?_⟩
    rintro last closed callStart length rfl within
    obtain ⟨endedCall, endedStart⟩ := spanEndedIn_begin limit callStart (callStart + length) last
    obtain ⟨sameCall, sameStart⟩ :=
      spanAfter_start language window callStart length (text.drop (callStart + length))
    exact (terminates.result last closed callStart).unique (reachesFar_spanAfter within)
      (endedCall.trans sameCall.symm) (endedStart.trans sameStart.symm)
  walking := fun _ _ => terminates_walkTurn
  searching := terminates_searchTurn language text

/--
Passing over a literal takes at least one character and stops within the text, where the
form of the literal asks for it. So masking, the way to a closing parenthesis and the
search for calls come to their ends on every text, in at most as many turns as there are
characters ahead of them.
-/
theorem literals_progress
    (language : Language)
    (text : Text) :
    language.SkipsLiterals text ∧ language.LoopsTerminate text :=
  ⟨skipsLiterals language text, loopsTerminate language text⟩

end TestAudit.Language
