import TestAudit.Proofs.Source.CallSpan

namespace TestAudit.Language

/-!
# Spans and the tokens of the whole text

The search for calls reads on where a span stops. Read from its beginning, the
text may be inside a literal there, when the span was cut off in a string: what
follows is then read with code and literals exchanged. The calls found are those of
the whole text exactly when no opening in a gap behind such a span is read differently.
-/

/-- The calls found are the calls in code of the whole text. -/
structure SpansFollowTokens (language : Language) (text : Text) (window : Nat) : Prop where
  /-- No span belongs to an opening inside a literal. -/
  inCode :
    ∀ span ∈ language.callSpans text window,
      language.Code text span.callStart
  /-- An opening in code and outside the spans that are found has a span. -/
  complete :
    ∀ offset start,
      language.Code text offset →
      language.OpensCall text offset start →
      (∀ span ∈ language.callSpans text window,
        ¬ (span.callStart ≤ offset ∧ offset < span.stop)) →
      ∃ span ∈ language.callSpans text window, span.callStart = offset

/--
From where a span stops up to the next span, the openings in code are the same
whether the text is read from there or from its beginning.
-/
def ReadsAlikeAfter (language : Language) (text : Text) (window : Nat) (span : CallSpan) : Prop :=
  ∀ offset start,
    language.OpensCall text offset start →
    span.stop ≤ offset →
    (∀ later ∈ language.callSpans text window,
      span.stop ≤ later.callStart → offset ≤ later.callStart) →
    (language.CodeFrom text span.stop offset ↔ language.Code text offset)

variable {language : Language} {text : Text} {window first : Nat} {spans : List CallSpan}

/-! ## Gaps between spans -/

namespace FoundFrom

/-- An opening in code has a span that begins there or before. -/
theorem exists_le_of_codeFrom
    (found : language.FoundFrom text window first spans)
    {offset start : Nat}
    (code : language.CodeFrom text first offset)
    (opens : language.OpensCall text offset start) :
    ∃ span ∈ spans, span.callStart ≤ offset := by
  cases found with
  | nothing none => exact (none offset start code opens).elim
  | call _ _ nearest _ _ =>
      exact ⟨_, List.mem_cons_self, nearest offset start code opens⟩

/-- The first of the spans belongs to code that is read from where the search begins. -/
theorem codeFrom_of_first
    (found : language.FoundFrom text window first spans)
    {span : CallSpan}
    (member : span ∈ spans)
    (isFirst : ∀ other ∈ spans, span.callStart ≤ other.callStart) :
    language.CodeFrom text first span.callStart := by
  cases found with
  | nothing => simp at member
  | @call first head later code opens nearest reaches rest =>
      have headBounds :=
        (FoundFrom.call code opens nearest reaches rest).bounds List.mem_cons_self
      rcases List.mem_cons.mp member with rfl | inLater
      · exact code
      · have atMost := isFirst head List.mem_cons_self
        have behind := rest.bounds inLater
        omega

/--
A span belongs to code that is read from the beginning, being the first one, or
from where the span just before it stops.
-/
theorem exists_previous
    (found : language.FoundFrom text window first spans)
    {span : CallSpan}
    (member : span ∈ spans) :
    language.CodeFrom text first span.callStart ∧
        (∀ later ∈ spans, span.callStart ≤ later.callStart) ∨
      ∃ previous ∈ spans,
        language.CodeFrom text previous.stop span.callStart ∧
          ∀ later ∈ spans,
            previous.stop ≤ later.callStart → span.callStart ≤ later.callStart := by
  induction found with
  | nothing => simp at member
  | @call first head later code opens nearest reaches rest inductionHypothesis =>
      have headBounds :=
        (FoundFrom.call code opens nearest reaches rest).bounds List.mem_cons_self
      rcases List.mem_cons.mp member with rfl | inLater
      · refine Or.inl ⟨code, ?_⟩
        intro other isOther
        rcases List.mem_cons.mp isOther with rfl | otherInLater
        · exact Nat.le_refl _
        · have behind := rest.bounds otherInLater
          omega
      · right
        rcases inductionHypothesis inLater with
          ⟨read, isFirst⟩ | ⟨previous, isPrevious, read, isNext⟩
        · refine ⟨head, List.mem_cons_self, read, ?_⟩
          intro other isOther after
          rcases List.mem_cons.mp isOther with rfl | otherInLater
          · omega
          · exact isFirst other otherInLater
        · have previousBounds := rest.bounds isPrevious
          refine ⟨previous, by simp [isPrevious], read, ?_⟩
          intro other isOther after
          rcases List.mem_cons.mp isOther with rfl | otherInLater
          · omega
          · exact isNext other otherInLater after

/--
An opening lies in a span, or it is no code when read from the point where the
search went on last: the beginning, or the end of the span before.
-/
theorem exists_covering_or_gap
    (found : language.FoundFrom text window first spans)
    {offset start : Nat}
    (opens : language.OpensCall text offset start)
    (after : first ≤ offset) :
    (∃ span ∈ spans, span.callStart ≤ offset ∧ offset < span.stop) ∨
      (¬ language.CodeFrom text first offset ∧
        ∀ later ∈ spans, offset < later.callStart) ∨
      ∃ span ∈ spans,
        span.stop ≤ offset ∧
          ¬ language.CodeFrom text span.stop offset ∧
          ∀ later ∈ spans, span.stop ≤ later.callStart → offset < later.callStart := by
  induction found with
  | nothing none =>
      exact Or.inr (Or.inl ⟨fun code => none offset start code opens, by simp⟩)
  | @call first head later code opensHead nearest reaches rest inductionHypothesis =>
      have headBounds :=
        (FoundFrom.call code opensHead nearest reaches rest).bounds List.mem_cons_self
      by_cases beyond : head.stop ≤ offset
      · rcases inductionHypothesis beyond with
          ⟨span, inLater, covers⟩ | ⟨unread, before⟩ | ⟨span, inLater, passed, unread, before⟩
        · exact Or.inl ⟨span, by simp [inLater], covers⟩
        · refine Or.inr (Or.inr ⟨head, List.mem_cons_self, beyond, unread, ?_⟩)
          intro other isOther behind
          rcases List.mem_cons.mp isOther with rfl | otherInLater
          · omega
          · exact before other otherInLater
        · have spanBounds := rest.bounds inLater
          refine Or.inr (Or.inr ⟨span, by simp [inLater], passed, unread, ?_⟩)
          intro other isOther behind
          rcases List.mem_cons.mp isOther with rfl | otherInLater
          · omega
          · exact before other otherInLater behind
      · by_cases reached : head.callStart ≤ offset
        · exact Or.inl ⟨head, List.mem_cons_self, reached, by omega⟩
        · refine Or.inr (Or.inl ⟨?_, ?_⟩)
          · intro read
            exact reached (nearest offset start read opens)
          · intro other isOther
            rcases List.mem_cons.mp isOther with rfl | otherInLater
            · omega
            · have behind := rest.bounds otherInLater
              omega

end FoundFrom

/--
An opening in code of the whole text lies in a span, or in the gap behind a span
that does not stop between two tokens, where it is not read as code.
-/
theorem exists_covering_or_misread
    {offset start : Nat}
    (code : language.Code text offset)
    (opens : language.OpensCall text offset start) :
    (∃ span ∈ language.callSpans text window, span.callStart ≤ offset ∧ offset < span.stop) ∨
      ∃ span ∈ language.callSpans text window,
        ¬ language.Boundary text span.stop ∧
          span.stop ≤ offset ∧
          ¬ language.CodeFrom text span.stop offset ∧
          ∀ later ∈ language.callSpans text window,
            span.stop ≤ later.callStart → offset < later.callStart := by
  have found := language.foundFrom_callSpans text window
  rcases found.exists_covering_or_gap opens (Nat.zero_le offset) with
    covered | ⟨unread, _⟩ | ⟨span, member, passed, unread, before⟩
  · exact Or.inl covered
  · exact (unread code).elim
  · refine Or.inr ⟨span, member, ?_, passed, unread, before⟩
    intro boundary
    exact unread ((CodeFrom.iff_of_reads boundary passed).mpr code)

/-! ## Agreement -/

/-- Spans that follow the tokens are read alike in every gap. -/
theorem SpansFollowTokens.readsAlikeAfter
    (follow : language.SpansFollowTokens text window)
    {span : CallSpan}
    (member : span ∈ language.callSpans text window) :
    language.ReadsAlikeAfter text window span := by
  intro offset start opens after upTo
  have found := language.foundFrom_callSpans text window
  obtain ⟨earlier, later, shape⟩ := List.mem_iff_append.mp member
  have behind
      {other : CallSpan} :
      other ∈ later ↔
        other ∈ language.callSpans text window ∧ span.stop ≤ other.callStart := by
    rw [shape] at found ⊢
    exact found.mem_after_iff
  have rest : language.FoundFrom text window span.stop later := by
    rw [shape] at found
    exact found.after
  constructor
  · intro read
    obtain ⟨next, inLater, atMost⟩ := rest.exists_le_of_codeFrom read opens
    obtain ⟨isNext, nextBehind⟩ := behind.mp inLater
    have same : offset = next.callStart :=
      Nat.le_antisymm (upTo next isNext nextBehind) atMost
    rw [same]
    exact follow.inCode next isNext
  · intro code
    by_cases covered :
        ∃ next ∈ language.callSpans text window,
          next.callStart ≤ offset ∧ offset < next.stop
    · obtain ⟨next, isNext, begins, ends⟩ := covered
      have nextBounds := found.bounds isNext
      have nextBehind : span.stop ≤ next.callStart := by
        rcases found.apart member isNext with rfl | behindSpan | beforeSpan
        · omega
        · exact behindSpan
        · have spanBounds := found.bounds member
          omega
      have same : offset = next.callStart :=
        Nat.le_antisymm (upTo next isNext nextBehind) begins
      rw [same]
      apply rest.codeFrom_of_first (behind.mpr ⟨isNext, nextBehind⟩)
      intro other inLater
      obtain ⟨isOther, otherBehind⟩ := behind.mp inLater
      rw [← same]
      exact upTo other isOther otherBehind
    · obtain ⟨next, isNext, rfl⟩ :=
        follow.complete offset start code opens
          (fun next isNext inside => covered ⟨next, isNext, inside⟩)
      have nextBounds := found.bounds isNext
      exact (covered ⟨next, isNext, by omega⟩).elim

/-- Spans that are read alike behind every stop inside a token follow the tokens. -/
theorem spansFollowTokens_of_alike
    (alike :
      ∀ span ∈ language.callSpans text window,
        ¬ language.Boundary text span.stop →
        language.ReadsAlikeAfter text window span) :
    language.SpansFollowTokens text window := by
  have found := language.foundFrom_callSpans text window
  constructor
  · intro span member
    rcases found.exists_previous member with ⟨code, _⟩ | ⟨previous, isPrevious, read, isNext⟩
    · exact code
    · by_cases boundary : language.Boundary text previous.stop
      · exact (CodeFrom.iff_of_reads boundary read.le).mp read
      · exact (alike previous isPrevious boundary span.callStart span.start
          (found.of_mem member).1 read.le isNext).mp read
  · intro offset start code opens outside
    rcases exists_covering_or_misread code opens with
      ⟨span, member, inside⟩ | ⟨span, member, notBoundary, passed, unread, before⟩
    · exact (outside span member inside).elim
    · have read :=
        (alike span member notBoundary offset start opens passed
          (fun later isLater behind => Nat.le_of_lt (before later isLater behind))).mpr code
      exact (unread read).elim

/-- A span that begins between two tokens stops between two, unless it is cut off. -/
theorem truncated_of_not_boundary
    {span : CallSpan}
    (member : span ∈ language.callSpans text window)
    (startsBetween : language.Boundary text span.start)
    (stopsInside : ¬ language.Boundary text span.stop) :
    span.truncated = true := by
  cases cutOff : span.truncated with
  | true => rfl
  | false =>
      have reaches := ((language.foundFrom_callSpans text window).of_mem member).2
      have closes := (reaches.closes cutOff).1
      exact (stopsInside (startsBetween.trans closes.codeFrom.reads)).elim

/--
The calls found are those of the whole text exactly when, behind each span that
does not stop between two tokens, the openings up to the next span are read alike.
A span whose arguments begin between two tokens stops between two, unless it is cut
off; without type arguments it is enough that its opening begins between two.
-/
theorem spansFollowTokens_iff
    (language : Language)
    (text : Text)
    (window : Nat) :
    (language.SpansFollowTokens text window ↔
      ∀ span ∈ language.callSpans text window,
        ¬ language.Boundary text span.stop →
        language.ReadsAlikeAfter text window span) ∧
      ∀ span ∈ language.callSpans text window,
        language.Boundary text span.start ∨
            language.Boundary text span.callStart ∧ language ≠ .csharp →
        ¬ language.Boundary text span.stop →
        span.truncated = true := by
  refine ⟨⟨?_, spansFollowTokens_of_alike⟩, ?_⟩
  · intro follow span member _
    exact follow.readsAlikeAfter member
  · rintro span member (startsBetween | ⟨opensBetween, untyped⟩)
    · exact truncated_of_not_boundary member startsBetween
    · have opens := ((language.foundFrom_callSpans text window).of_mem member).1
      exact truncated_of_not_boundary member (opensBetween.trans (opens.reads untyped))

/--
A string that the window cuts is read on as code: the call in it gets a span,
although the string covers its opening.
-/
theorem not_spansFollowTokens_of_cut_string :
    ¬ Language.SpansFollowTokens .script "x.evaluate('a .evaluate(b)'" 3 := by
  intro follow
  have inCode :=
    follow.inCode ⟨14, 24, 25, false⟩ (by decide)
  have toString : Language.Reads .script "x.evaluate('a .evaluate(b)'" 0 11 :=
    .of_plain (by decide) (by decide)
  have string : Language.TokenEnds .script "x.evaluate('a .evaluate(b)'" 11 (11 + 16) :=
    .literal (by decide)
  exact toString.not_inside string (by decide) (by decide) inCode.reads

end TestAudit.Language
