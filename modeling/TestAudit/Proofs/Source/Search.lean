import Mathlib.Data.Nat.Find
import TestAudit.Proofs.Source.Balance

namespace TestAudit.Language

/-!
# The search for calls turn by turn

One turn of the search goes to the next opening, wherever it stands, and reads the text
up to it. When a literal covers the opening, the search goes on behind the literal;
otherwise the call has a span, and the search goes on where that one stops. Each turn
moves on inside the text, even past a span without arguments, so there is a last one.
-/

/-- No call is opened from one offset up to another, in code or not. -/
def NoOpening (language : Language) (text : Text) (first last : Nat) : Prop :=
  ∀ offset start,
    first ≤ offset →
    offset < last →
    ¬ language.OpensCall text offset start

/-- One turn of the search, from an offset to where it goes on, with the span that it finds. -/
inductive Turn (language : Language) (text : Text) (window : Nat) :
    Nat → Option CallSpan → Nat → Prop where
  /-- The next opening stands in a literal. -/
  | hidden {first opening start literal length : Nat} :
      language.NoOpening text first opening →
      language.OpensCall text opening start →
      language.Reads text first literal →
      language.literalLength? (text.drop literal) = some length →
      literal < opening →
      opening < literal + length →
      Turn language text window first none (literal + length)
  /-- Reading comes to the next opening. -/
  | found {first : Nat} {span : CallSpan} :
      language.NoOpening text first span.callStart →
      language.OpensCall text span.callStart span.start →
      language.Reads text first span.callStart →
      language.ReachesFar text window span →
      Turn language text window first (some span) span.stop

/-- The search from an offset to its end, with all spans that its turns find. -/
inductive Searches (language : Language) (text : Text) (window : Nat) :
    Nat → List CallSpan → Prop where
  /-- No opening is left. -/
  | done {first : Nat} :
      language.NoOpening text first text.length →
      Searches language text window first []
  /-- One turn, and the search from where it goes on. -/
  | turn {first next : Nat} {found : Option CallSpan} {later : List CallSpan} :
      language.Turn text window first found next →
      Searches language text window next later →
      Searches language text window first (found.toList ++ later)

variable {language : Language} {text : Text} {window first next : Nat}

/-! ## Progress -/

/-- A turn moves on and stays inside the text. -/
theorem Turn.progress
    {found : Option CallSpan}
    (turn : language.Turn text window first found next) :
    first < next ∧ next ≤ text.length := by
  cases turn with
  | hidden _ _ reads literal =>
      have before := reads.le
      have bounds := literalLength?_bounds literal
      rw [List.length_drop] at bounds
      omega
  | found _ opens reads reaches =>
      have before := reads.le
      have opening := opens.bounds
      have reach := reaches.bounds opening.2
      omega

/-- Of the openings from an offset on, one is the next. -/
theorem exists_next_opening
    {offset start : Nat}
    (opens : language.OpensCall text offset start)
    (after : first ≤ offset) :
    ∃ opening start,
      first ≤ opening ∧
        language.OpensCall text opening start ∧
        language.NoOpening text first opening := by
  classical
  have anOpening : ∃ opening, first ≤ opening ∧ ∃ start, language.OpensCall text opening start :=
    ⟨offset, after, start, opens⟩
  obtain ⟨notBefore, nextStart, nextOpens⟩ := Nat.find_spec anOpening
  refine ⟨_, nextStart, notBefore, nextOpens, ?_⟩
  intro other otherStart otherAfter otherBefore otherOpens
  exact Nat.find_min anOpening otherBefore ⟨otherAfter, otherStart, otherOpens⟩

/-- As long as an opening is left, there is a turn. -/
theorem exists_turn
    {offset start : Nat}
    (window : Nat)
    (opens : language.OpensCall text offset start)
    (after : first ≤ offset) :
    ∃ found next, language.Turn text window first found next := by
  obtain ⟨opening, nextStart, notBefore, nextOpens, none⟩ := exists_next_opening opens after
  have bounds := nextOpens.bounds
  obtain ⟨token, stop, reads, ends, begins, covers⟩ :=
    @Reads.exists_token language text first opening notBefore (by omega)
  rcases Nat.eq_or_lt_of_le begins with rfl | before
  · obtain ⟨span, rfl, rfl, reaches⟩ := exists_reachesFar window nextOpens
    exact ⟨_, _, .found none nextOpens reads reaches⟩
  · cases ends with
    | literal literal => exact ⟨_, _, .hidden none nextOpens reads literal before covers⟩
    | code => omega

/-- Every search comes to an end. -/
theorem exists_searches
    (language : Language)
    (text : Text)
    (window first : Nat) :
    ∃ spans, language.Searches text window first spans := by
  induction remaining : text.length - first using Nat.strongRecOn generalizing first with
  | ind remaining inductionHypothesis =>
      subst remaining
      by_cases none : language.NoOpening text first text.length
      · exact ⟨_, .done none⟩
      · unfold NoOpening at none
        push Not at none
        obtain ⟨offset, start, after, _, opens⟩ := none
        obtain ⟨found, next, turn⟩ := exists_turn window opens after
        have progress := turn.progress
        obtain ⟨later, searches⟩ := inductionHypothesis _ (by omega) next rfl
        exact ⟨_, .turn turn searches⟩

/-! ## What the turns find -/

/-- The turns of a search find the spans in code. -/
theorem Searches.foundFrom
    {spans : List CallSpan}
    (searches : language.Searches text window first spans) :
    language.FoundFrom text window first spans := by
  induction searches with
  | done none =>
      apply FoundFrom.nothing
      intro offset start code
      exact none offset start code.le code.within
  | turn turn _ inductionHypothesis =>
      cases turn with
      | hidden none opens reads literal before covers =>
          refine inductionHypothesis.of_reads (reads.tail (.literal literal)) ?_
          intro offset start code opensThere
          apply Nat.le_of_not_lt
          intro inside
          have notBefore : ¬ offset < _ := fun early => none offset start code.le early opensThere
          exact reads.not_inside (.literal literal) (by omega) inside code.reads
      | found none opens reads reaches =>
          have opening := opens.bounds
          refine .call ⟨reads, by omega, opens.plain⟩ opens ?_ reaches inductionHypothesis
          intro offset start code opensThere
          apply Nat.le_of_not_lt
          intro early
          exact none offset start code.le early opensThere

/-- The search from the beginning of a text ends with its spans. -/
theorem searches_callSpans
    (language : Language)
    (text : Text)
    (window : Nat) :
    language.Searches text window 0 (language.callSpans text window) := by
  obtain ⟨spans, searches⟩ := exists_searches language text window 0
  rw [← searches.foundFrom.unique (language.foundFrom_callSpans text window)]
  exact searches

/--
The spans of a text are in order and apart, and each stops where its parentheses are
balanced, or at the window. The search for them moves on with every turn and ends.
-/
theorem callSpans_stop_by_count
    (language : Language)
    (text : Text)
    (window : Nat) :
    ((language.callSpans text window).Pairwise fun span later =>
        span.stop ≤ later.callStart) ∧
      (∀ span ∈ language.callSpans text window, language.StopsByCount text window span) ∧
      language.Searches text window 0 (language.callSpans text window) ∧
      ∀ first found next,
        language.Turn text window first found next →
        first < next ∧ next ≤ text.length := by
  have found := language.foundFrom_callSpans text window
  refine ⟨found.pairwise, ?_, searches_callSpans language text window,
    fun _ _ _ turn => turn.progress⟩
  intro span member
  obtain ⟨opens, reaches⟩ := found.of_mem member
  exact reaches.stopsByCount opens

end TestAudit.Language
