import TestAudit.Proofs.Source.CallOpening
import TestAudit.Proofs.Source.Closing

namespace TestAudit.Language

/-!
# What the search for calls finds

The spans of a text form a chain: each is the first call in code that is read from
where the one before stopped, and reaches to its closing parenthesis, or to the
window where that one is not near enough. Spans are therefore in order and apart.
-/

/-- A span reaches to its closing parenthesis if that one is in the window, or else is cut off. -/
inductive ReachesFar (language : Language) (text : Text) (window : Nat) : CallSpan → Prop where
  | closed {callStart start close : Nat} :
      language.Closes text 1 start close →
      close < start + window →
      ReachesFar language text window ⟨callStart, start, close, false⟩
  | cut {callStart start : Nat} :
      (∀ close, language.Closes text 1 start close → start + window ≤ close) →
      ReachesFar language text window
        ⟨callStart, start, min text.length (start + window), true⟩

/-- The spans that are found when a text is read from an offset on. -/
inductive FoundFrom (language : Language) (text : Text) (window : Nat) :
    Nat → List CallSpan → Prop where
  /-- No code read from here on opens a call. -/
  | nothing {first : Nat} :
      (∀ offset start,
        language.CodeFrom text first offset →
        ¬ language.OpensCall text offset start) →
      FoundFrom language text window first []
  /-- The first code that opens a call; reading goes on where its span stops. -/
  | call {first : Nat} {span : CallSpan} {later : List CallSpan} :
      language.CodeFrom text first span.callStart →
      language.OpensCall text span.callStart span.start →
      (∀ offset start,
        language.CodeFrom text first offset →
        language.OpensCall text offset start →
        span.callStart ≤ offset) →
      language.ReachesFar text window span →
      FoundFrom language text window span.stop later →
      FoundFrom language text window first (span :: later)

variable {language : Language} {text : Text} {window : Nat}

/-! ## Spans -/

/-- The span behind an opening reaches as far as it should. -/
theorem reachesFar_spanAfter
    {callStart length : Nat}
    (within : callStart + length ≤ text.length) :
    language.ReachesFar text window
      (language.spanAfter window callStart length (text.drop (callStart + length))) := by
  unfold spanAfter
  cases found : language.closingDistance? window 1 0 (text.drop (callStart + length)) with
  | some distance =>
      obtain ⟨closes, near⟩ := closes_of_closingDistance? found
      exact .closed closes (by omega)
  | none =>
      have cutOff :
          callStart + length + min (text.drop (callStart + length)).length window =
            min text.length (callStart + length + window) := by
        rw [List.length_drop]
        omega
      simp only [cutOff]
      apply ReachesFar.cut
      intro close closes
      apply Nat.le_of_not_lt
      intro near
      rw [closingDistance?_of_closes closes near] at found
      cases found

theorem spanAfter_start
    (language : Language)
    (window callStart length : Nat)
    (arguments : Text) :
    (language.spanAfter window callStart length arguments).callStart = callStart ∧
      (language.spanAfter window callStart length arguments).start = callStart + length := by
  unfold spanAfter
  split <;> exact ⟨rfl, rfl⟩

/-- Every opening has a span that reaches as far as it should. -/
theorem exists_reachesFar
    {callStart start : Nat}
    (window : Nat)
    (opens : language.OpensCall text callStart start) :
    ∃ span : CallSpan,
      span.callStart = callStart ∧ span.start = start ∧
        language.ReachesFar text window span := by
  have bounds := opens.bounds
  obtain ⟨opening, length, _, _, rfl⟩ := opens
  obtain ⟨sameCall, sameStart⟩ :=
    spanAfter_start language window callStart length (text.drop (callStart + length))
  exact ⟨_, sameCall, sameStart, reachesFar_spanAfter bounds.2⟩

namespace ReachesFar

theorem bounds
    {span : CallSpan}
    (reaches : language.ReachesFar text window span)
    (within : span.start ≤ text.length) :
    span.start ≤ span.stop ∧ span.stop ≤ text.length := by
  cases reaches with
  | closed closes near =>
      exact ⟨closes.codeFrom.le, Nat.le_of_lt closes.codeFrom.within⟩
  | cut far =>
      simp only at within ⊢
      omega

theorem closes
    {span : CallSpan}
    (reaches : language.ReachesFar text window span)
    (whole : span.truncated = false) :
    language.Closes text 1 span.start span.stop ∧ span.stop < span.start + window := by
  cases reaches with
  | closed closes near => exact ⟨closes, near⟩
  | cut far => cases whole

/-- How far a span reaches is determined by where its call begins. -/
theorem unique
    {span other : CallSpan}
    (reaches : language.ReachesFar text window span)
    (otherReaches : language.ReachesFar text window other)
    (sameCall : span.callStart = other.callStart)
    (sameStart : span.start = other.start) :
    span = other := by
  cases reaches with
  | closed closes near =>
      cases otherReaches with
      | closed otherCloses otherNear =>
          cases sameCall
          cases sameStart
          rw [closes.unique otherCloses]
      | cut far =>
          cases sameStart
          have beyond := far _ closes
          omega
  | cut far =>
      cases otherReaches with
      | closed otherCloses otherNear =>
          cases sameStart
          have beyond := far _ otherCloses
          omega
      | cut otherFar =>
          cases sameCall
          cases sameStart
          rfl

end ReachesFar

/-! ## The search -/

theorem callSpansFrom_nil
    (language : Language)
    (opening : Pattern)
    (window skip offset : Nat) :
    language.callSpansFrom opening window skip offset [] = [] := by
  cases skip <;> rfl

theorem callSpansFrom_skip
    (language : Language)
    (opening : Pattern)
    (window skip offset : Nat)
    (text : Text) :
    language.callSpansFrom opening window skip offset text =
      language.callSpansFrom opening window 0 (offset + skip) (text.drop skip) := by
  induction skip generalizing offset text with
  | zero => rfl
  | succ skip inductionHypothesis =>
      cases text with
      | nil => simp [callSpansFrom_nil]
      | cons c rest =>
          rw [callSpansFrom, inductionHypothesis]
          simp [Nat.add_assoc, Nat.add_comm 1 skip]

/-- Passing over the rest of what begins at an offset takes the search to where that ends. -/
theorem callSpansFrom_rest
    {opening : Pattern}
    {offset stop : Nat}
    (after : offset < stop) :
    language.callSpansFrom opening window (stop - offset - 1) (offset + 1)
        (text.drop (offset + 1)) =
      language.callSpansFrom opening window 0 stop (text.drop stop) := by
  rw [callSpansFrom_skip, List.drop_drop]
  congr 2 <;> omega

/-! What stands at an offset says how the search goes on from there. -/

theorem callSpansFrom_of_literal
    {opening : Pattern}
    {offset length : Nat}
    (literal : language.literalLength? (text.drop offset) = some length) :
    language.callSpansFrom opening window 0 offset (text.drop offset) =
      language.callSpansFrom opening window 0 (offset + length) (text.drop (offset + length)) := by
  have positive := (literalLength?_bounds literal).1
  cases shape : text.drop offset with
  | nil => simp [shape] at literal
  | cons c rest =>
      obtain ⟨_, _, rfl⟩ := Text.drop_eq_cons shape
      rw [shape] at literal
      rw [callSpansFrom, literal]
      simp only
      rw [callSpansFrom_skip, List.drop_drop,
        show offset + 1 + (length - 1) = offset + length by omega]

theorem callSpansFrom_of_plain
    {opening : Pattern}
    {offset : Nat}
    (within : offset < text.length)
    (plain : language.literalLength? (text.drop offset) = none)
    (noCall : opening.matchLength? ⟨[], text.drop offset⟩ = none) :
    language.callSpansFrom opening window 0 offset (text.drop offset) =
      language.callSpansFrom opening window 0 (offset + 1) (text.drop (offset + 1)) := by
  rw [List.drop_eq_getElem_cons within] at plain noCall ⊢
  rw [callSpansFrom, plain]
  simp only [noCall]

theorem callSpansFrom_of_opening
    {opening : Pattern}
    {offset length : Nat}
    (within : offset < text.length)
    (plain : language.literalLength? (text.drop offset) = none)
    (opens : opening.matchLength? ⟨[], text.drop offset⟩ = some length)
    {span : CallSpan}
    (isSpan :
      span = language.spanAfter window offset length (text.drop (offset + length)))
    (after : offset < span.stop) :
    language.callSpansFrom opening window 0 offset (text.drop offset) =
      span :: language.callSpansFrom opening window 0 span.stop (text.drop span.stop) := by
  rw [← List.drop_drop] at isSpan
  rw [List.drop_eq_getElem_cons within] at plain opens isSpan ⊢
  rw [callSpansFrom, plain]
  simp only [opens]
  rw [← isSpan, callSpansFrom_rest after]

namespace FoundFrom

/-- What is read before any code that opens a call may be left out at the beginning. -/
theorem of_reads
    {first next : Nat}
    {spans : List CallSpan}
    (reads : language.Reads text first next)
    (behind :
      ∀ offset start,
        language.CodeFrom text first offset →
        language.OpensCall text offset start →
        next ≤ offset)
    (found : language.FoundFrom text window next spans) :
    language.FoundFrom text window first spans := by
  have sameCode
      {offset start : Nat}
      (code : language.CodeFrom text first offset)
      (opens : language.OpensCall text offset start) :
      language.CodeFrom text next offset :=
    (CodeFrom.iff_of_reads reads (behind offset start code opens)).mpr code
  cases found with
  | nothing none =>
      apply FoundFrom.nothing
      intro offset start code opens
      exact none offset start (sameCode code opens) opens
  | call code opens nearest reaches later =>
      refine .call ((CodeFrom.iff_of_reads reads code.le).mp code) opens ?_ reaches later
      intro offset start codeThere opensThere
      exact nearest offset start (sameCode codeThere opensThere) opensThere

/-- A token that opens no call may be left out at the beginning. -/
theorem of_tokenEnds
    {first next : Nat}
    {spans : List CallSpan}
    (token : language.TokenEnds text first next)
    (noCall :
      language.CodeFrom text first first →
      ∀ start, ¬ language.OpensCall text first start)
    (found : language.FoundFrom text window next spans) :
    language.FoundFrom text window first spans := by
  refine found.of_reads (.single token) ?_
  intro offset start code opens
  rcases Relation.ReflTransGen.cases_head code.reads with rfl | ⟨middle, step, rest⟩
  · exact (noCall code start opens).elim
  · have same : middle = next := TokenEnds.rightUnique step token
    exact same ▸ Reads.le rest

end FoundFrom

/-- The search finds the first call in code, and goes on where its span stops. -/
theorem foundFrom_callSpansFrom
    {opening : Pattern}
    (has : language.callOpening? = some opening)
    (first : Nat) :
    language.FoundFrom text window first
      (language.callSpansFrom opening window 0 first (text.drop first)) := by
  induction remaining : text.length - first using Nat.strongRecOn generalizing first with
  | ind remaining inductionHypothesis =>
      subst remaining
      rcases Nat.lt_or_ge first text.length with within | beyond
      · cases literal : language.literalLength? (text.drop first) with
        | some length =>
            have positive := (literalLength?_bounds literal).1
            rw [callSpansFrom_of_literal literal]
            refine .of_tokenEnds (.literal literal) ?_ (inductionHypothesis _ (by omega) _ rfl)
            intro code
            cases literal.symm.trans code.plain
        | none =>
            cases found : opening.matchLength? ⟨[], text.drop first⟩ with
            | none =>
                rw [callSpansFrom_of_plain within literal found]
                refine .of_tokenEnds (.code within literal) ?_
                  (inductionHypothesis _ (by omega) _ rfl)
                rintro _ start ⟨other, length, hasOther, opens, _⟩
                cases has.symm.trans hasOther
                cases found.symm.trans opens
            | some length =>
                have opens : language.OpensCall text first (first + length) :=
                  ⟨opening, length, has, found, rfl⟩
                have bounds := opens.bounds
                obtain ⟨span, isSpan⟩ :
                    ∃ span,
                      span =
                        language.spanAfter window first length (text.drop (first + length)) :=
                  ⟨_, rfl⟩
                have reaches : language.ReachesFar text window span :=
                  isSpan ▸ reachesFar_spanAfter bounds.2
                obtain ⟨isCall, isStart⟩ : span.callStart = first ∧ span.start = first + length :=
                  isSpan ▸ spanAfter_start language window first length _
                have stops := reaches.bounds (by omega)
                rw [callSpansFrom_of_opening within literal found isSpan (by omega)]
                refine .call ?_ ?_ ?_ reaches (inductionHypothesis _ (by omega) _ rfl)
                · rw [isCall]
                  exact ⟨.refl, within, literal⟩
                · rw [isCall, isStart]
                  exact opens
                · intro offset start code _
                  rw [isCall]
                  exact code.le
      · rw [List.drop_eq_nil_of_le beyond, callSpansFrom_nil]
        apply FoundFrom.nothing
        intro offset start code
        have after := code.le
        have within := code.within
        omega

/-- The spans of a text are those found from its beginning. -/
theorem foundFrom_callSpans
    (language : Language)
    (text : Text)
    (window : Nat) :
    language.FoundFrom text window 0 (language.callSpans text window) := by
  unfold callSpans
  cases has : language.callOpening? with
  | none =>
      apply FoundFrom.nothing
      rintro offset start _ ⟨opening, length, hasOpening, _⟩
      cases has.symm.trans hasOpening
  | some opening =>
      exact foundFrom_callSpansFrom has 0

/-! ## The chain of spans -/

namespace FoundFrom

variable {first : Nat} {spans : List CallSpan}

/-- Every span that is found belongs to a call and reaches as far as it should. -/
theorem of_mem
    (found : language.FoundFrom text window first spans)
    {span : CallSpan}
    (member : span ∈ spans) :
    language.OpensCall text span.callStart span.start ∧
      language.ReachesFar text window span := by
  induction found with
  | nothing => simp at member
  | call _ opens _ reaches _ inductionHypothesis =>
      rcases List.mem_cons.mp member with rfl | inLater
      · exact ⟨opens, reaches⟩
      · exact inductionHypothesis inLater

theorem bounds
    (found : language.FoundFrom text window first spans)
    {span : CallSpan}
    (member : span ∈ spans) :
    first ≤ span.callStart ∧ span.callStart < span.start ∧
      span.start ≤ span.stop ∧ span.stop ≤ text.length := by
  induction found with
  | nothing => simp at member
  | call code opens _ reaches _ inductionHypothesis =>
      have opening := opens.bounds
      have reach := reaches.bounds opening.2
      rcases List.mem_cons.mp member with rfl | inLater
      · exact ⟨code.le, opening.1, reach⟩
      · have behind := inductionHypothesis inLater
        have after := code.le
        omega

/-- Spans are found in order, each behind the one before. -/
theorem pairwise
    (found : language.FoundFrom text window first spans) :
    spans.Pairwise fun span later => span.stop ≤ later.callStart := by
  induction found with
  | nothing => exact .nil
  | call _ _ _ _ rest inductionHypothesis =>
      exact .cons (fun later inLater => (rest.bounds inLater).1) inductionHypothesis

/-- Two spans are one, or one of them stops before the other begins. -/
theorem apart
    (found : language.FoundFrom text window first spans)
    {span other : CallSpan}
    (isSpan : span ∈ spans)
    (isOther : other ∈ spans) :
    span = other ∨ span.stop ≤ other.callStart ∨ other.stop ≤ span.callStart := by
  induction found with
  | nothing => simp at isSpan
  | call _ _ _ _ rest inductionHypothesis =>
      rcases List.mem_cons.mp isSpan with rfl | spanInLater
      · rcases List.mem_cons.mp isOther with rfl | otherInLater
        · exact Or.inl rfl
        · exact Or.inr (Or.inl (rest.bounds otherInLater).1)
      · rcases List.mem_cons.mp isOther with rfl | otherInLater
        · exact Or.inr (Or.inr (rest.bounds spanInLater).1)
        · exact inductionHypothesis spanInLater otherInLater

/-- The spans that are found are determined by where the search begins. -/
theorem unique
    {others : List CallSpan}
    (found : language.FoundFrom text window first spans)
    (foundOthers : language.FoundFrom text window first others) :
    spans = others := by
  induction found generalizing others with
  | nothing none =>
      cases foundOthers with
      | nothing => rfl
      | call code opens => exact (none _ _ code opens).elim
  | @call first span later code opens nearest reaches rest inductionHypothesis =>
      cases foundOthers with
      | nothing none => exact (none _ _ code opens).elim
      | @call _ otherSpan otherLater otherCode otherOpens otherNearest otherReaches otherRest =>
          have sameCall : span.callStart = otherSpan.callStart :=
            Nat.le_antisymm (nearest _ _ otherCode otherOpens) (otherNearest _ _ code opens)
          have sameStart : span.start = otherSpan.start := by
            rw [← sameCall] at otherOpens
            exact opens.unique otherOpens
          obtain rfl : span = otherSpan := reaches.unique otherReaches sameCall sameStart
          rw [inductionHypothesis otherRest]

/-- The spans behind a span are those found from where it stops. -/
theorem after
    {earlier later : List CallSpan}
    {span : CallSpan}
    (found : language.FoundFrom text window first (earlier ++ span :: later)) :
    language.FoundFrom text window span.stop later := by
  induction earlier generalizing first with
  | nil =>
      cases found with
      | call _ _ _ _ rest => exact rest
  | cons head earlier inductionHypothesis =>
      cases found with
      | call _ _ _ _ rest => exact inductionHypothesis rest

/-- The spans behind a span are those that begin where it stops or later. -/
theorem mem_after_iff
    {earlier later : List CallSpan}
    {span other : CallSpan}
    (found : language.FoundFrom text window first (earlier ++ span :: later)) :
    other ∈ later ↔
      other ∈ earlier ++ span :: later ∧ span.stop ≤ other.callStart := by
  constructor
  · intro inLater
    exact ⟨by simp [inLater], (found.after.bounds inLater).1⟩
  · rintro ⟨member, behind⟩
    induction earlier generalizing first with
    | nil =>
        have isMember : span ∈ [] ++ span :: later := List.mem_cons_self
        have spanBounds := found.bounds isMember
        rcases List.mem_cons.mp member with rfl | inLater
        · omega
        · exact inLater
    | cons head earlier inductionHypothesis =>
        have isMember : span ∈ earlier ++ span :: later := by simp
        cases found with
        | call code opens nearest reaches rest =>
            have headBounds :=
              (FoundFrom.call code opens nearest reaches rest).bounds List.mem_cons_self
            have spanBounds := rest.bounds isMember
            rcases List.mem_cons.mp member with rfl | inRest
            · omega
            · exact inductionHypothesis rest inRest

end FoundFrom

end TestAudit.Language
