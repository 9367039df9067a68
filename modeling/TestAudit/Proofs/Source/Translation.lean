import TestAudit.Proofs.Source.CallSpan
import TestAudit.Proofs.Source.Mask
import TestAudit.Proofs.Source.Receiver

namespace TestAudit

/-!
# Spans, masks and receivers behind blanks

No literal and no call begins with a blank, so blanks in front of a text move its spans,
and stay in front of its mask. A chain of names and groups does not go on over a blank,
and no blank opens a group: with blanks in front of a text, the receivers in it are the
same.
-/

/-- The span at offsets that are greater by a distance. -/
def CallSpan.movedBy (distance : Nat) (span : CallSpan) : CallSpan where
  callStart := span.callStart + distance
  start := span.start + distance
  stop := span.stop + distance
  truncated := span.truncated

namespace Text

theorem take_behind
    (front text : Text)
    (offset : Nat) :
    (front ++ text).take (offset + front.length) = front ++ text.take offset := by
  rw [Nat.add_comm]
  exact List.take_length_add_append offset

theorem drop_behind
    (front text : Text)
    (offset : Nat) :
    (front ++ text).drop (offset + front.length) = text.drop offset := by
  rw [Nat.add_comm]
  exact List.drop_length_add_append offset

end Text

namespace Language

variable {language : Language} {blanks : Text}

/-! ## Spans -/

theorem spanAfter_add
    (language : Language)
    (window callStart distance openingLength : Nat)
    (arguments : Text) :
    language.spanAfter window (callStart + distance) openingLength arguments =
      (language.spanAfter window callStart openingLength arguments).movedBy distance := by
  unfold spanAfter
  split <;> simp only [CallSpan.movedBy, CallSpan.mk.injEq, and_true, true_and] <;> omega

/-- A search that begins at a greater offset finds the same spans at greater offsets. -/
theorem callSpansFrom_add
    (language : Language)
    (opening : Pattern)
    (window skip offset distance : Nat)
    (text : Text) :
    language.callSpansFrom opening window skip (offset + distance) text =
      (language.callSpansFrom opening window skip offset text).map (·.movedBy distance) := by
  induction text generalizing skip offset with
  | nil => simp [callSpansFrom_nil]
  | cons c rest inductionHypothesis =>
      have further (later : Nat) :
          language.callSpansFrom opening window later (offset + distance + 1) rest =
            (language.callSpansFrom opening window later (offset + 1) rest).map
              (·.movedBy distance) := by
        rw [Nat.add_right_comm]
        exact inductionHypothesis later (offset + 1)
      cases skip with
      | succ skip => exact further skip
      | zero =>
          simp only [callSpansFrom, further, spanAfter_add]
          split
          · rfl
          · split
            · rfl
            · have sameRest (span : CallSpan) :
                  (span.movedBy distance).stop - (offset + distance) - 1 =
                    span.stop - offset - 1 := by
                simp only [CallSpan.movedBy]
                omega
              simp only [sameRest, List.map_cons]

section Blanks

variable (areBlank : ∀ c ∈ blanks, Text.isBlank c = true)

include areBlank

theorem callSpansFrom_behind_blanks
    {opening : Pattern}
    (has : language.callOpening? = some opening)
    (window offset : Nat)
    (text : Text) :
    language.callSpansFrom opening window 0 offset (blanks ++ text) =
      language.callSpansFrom opening window 0 (offset + blanks.length) text := by
  induction blanks generalizing offset with
  | nil => rfl
  | cons c blanks inductionHypothesis =>
      obtain ⟨headBlank, othersBlank⟩ := List.forall_mem_cons.mp areBlank
      have plain : language.literalLength? (c :: (blanks ++ text)) = none :=
        literalLength?_of_not_mem_literalHeads (not_mem_literalHeads_of_isBlank headBlank)
      have noCall : opening.matchLength? ⟨[], c :: (blanks ++ text)⟩ = none := by
        refine Option.eq_none_iff_forall_ne_some.mpr fun length found => ?_
        obtain ⟨_, d, rest, shape, notBlank⟩ :=
          Pattern.matchLength?_of_isSolid (callOpening?_isSolid has) found
        obtain rfl : c = d := (List.cons.inj shape).1
        simp [headBlank] at notBlank
      rw [List.cons_append, callSpansFrom, plain]
      simp only [noCall]
      rw [inductionHypothesis othersBlank, List.length_cons, Nat.add_right_comm, Nat.add_assoc]

/-- Blanks in front of a text move its spans. -/
theorem callSpans_behind_blanks
    (language : Language)
    (window : Nat)
    (text : Text) :
    language.callSpans (blanks ++ text) window =
      (language.callSpans text window).map (·.movedBy blanks.length) := by
  unfold callSpans
  split
  · rfl
  · next opening has =>
      rw [callSpansFrom_behind_blanks areBlank has, callSpansFrom_add]

/-! ## Masks -/

/-- Blanks in front of a text stay in front of its mask. -/
theorem mask_behind_blanks
    (language : Language)
    (text : Text) :
    language.mask (blanks ++ text) = blanks ++ language.mask text := by
  induction blanks with
  | nil => rfl
  | cons c blanks inductionHypothesis =>
      obtain ⟨headBlank, othersBlank⟩ := List.forall_mem_cons.mp areBlank
      have plain : language.literalToken? (c :: (blanks ++ text)) = none := by
        rw [literalToken?,
          literalLength?_of_not_mem_literalHeads (not_mem_literalHeads_of_isBlank headBlank)]
        rfl
      rw [List.cons_append, mask, Text.replaceTokens_of_plain plain]
      exact congrArg (c :: ·) (inductionHypothesis othersBlank)

end Blanks

end Language

namespace Receiver

open Text

/-! ## Receivers -/

theorem groupLength?_le
    {closer opener : Char}
    {depth length : Nat}
    {text : Text}
    (differ : closer ≠ opener)
    (found : groupLength? closer opener (depth + 1) text = some length) :
    length ≤ text.length := by
  obtain ⟨inside, outer, rfl, rfl, _⟩ := (groupLength?_eq_some_iff differ).mp found
  simp

theorem chainLength?_le
    {skip length : Nat}
    {text : Text}
    (found : chainLength? skip text = some length) :
    length ≤ text.length := by
  induction text generalizing skip length with
  | nil =>
      obtain rfl : 0 = length := by simpa [chainLength?] using found
      exact Nat.le_refl 0
  | cons c rest inductionHypothesis =>
      have further
          {next : Nat}
          (inRest : (chainLength? next rest).map (· + 1) = some length) :
          length ≤ (c :: rest).length := by
        obtain ⟨shorter, foundRest, rfl⟩ := Option.map_eq_some_iff.mp inRest
        exact Nat.succ_le_succ (inductionHypothesis foundRest)
      cases skip with
      | succ skip => exact further found
      | zero =>
          unfold chainLength? at found
          split at found
          · split at found
            · exact further found
            · cases found
          · split at found
            · exact further found
            · cases found
              exact Nat.zero_le _

section Blanks

variable {blanks : Text} (areBlank : ∀ c ∈ blanks, isBlank c = true)

include areBlank

/-- A group that nothing opens is not opened by a blank before it either. -/
theorem groupLength?_append_blanks
    {closer opener : Char}
    (notBlank : isBlank opener = false)
    (depth : Nat)
    (text : Text) :
    groupLength? closer opener depth (text ++ blanks) =
      groupLength? closer opener depth text := by
  induction text generalizing depth with
  | nil =>
      rw [List.nil_append, groupLength?]
      induction blanks generalizing depth with
      | nil => rfl
      | cons c blanks inductionHypothesis =>
          obtain ⟨headBlank, othersBlank⟩ := List.forall_mem_cons.mp areBlank
          have notOpener : c ≠ opener := by
            rintro rfl
            simp [headBlank] at notBlank
          simp [groupLength?, notOpener, inductionHypothesis othersBlank]
  | cons c rest inductionHypothesis =>
      simp only [List.cons_append, groupLength?, inductionHypothesis]

/-- A chain does not go on over blanks before it. -/
theorem chainLength?_append_blanks
    {skip : Nat}
    {text : Text}
    (within : skip ≤ text.length) :
    chainLength? skip (text ++ blanks) = chainLength? skip text := by
  induction text generalizing skip with
  | nil =>
      obtain rfl : skip = 0 := Nat.le_zero.mp within
      cases blanks with
      | nil => rfl
      | cons c blanks => exact chainLength?_of_isBlank (areBlank c List.mem_cons_self)
  | cons c rest inductionHypothesis =>
      cases skip with
      | succ skip =>
          rw [List.cons_append, chainLength?, chainLength?,
            inductionHypothesis (Nat.le_of_succ_le_succ within)]
      | zero =>
          have sameGroup
              {opener : Char}
              (opens : openerOf? c = some opener) :
              groupLength? c opener 1 (rest ++ blanks) = groupLength? c opener 1 rest := by
            refine groupLength?_append_blanks areBlank ?_ 1 rest
            unfold openerOf? at opens
            split at opens
            · cases opens
              rfl
            · cases opens
              rfl
            · cases opens
          rw [List.cons_append, chainLength?, chainLength?]
          split
          · next opener opens =>
              rw [sameGroup opens]
              split
              · next length found =>
                  have within := groupLength?_le (ne_of_openerOf? opens) found
                  rw [inductionHypothesis within]
              · rfl
          · rw [inductionHypothesis (Nat.zero_le _)]

/-- Blanks in front of a text leave the receivers in it as they are. -/
theorem chain_behind_blanks
    {text : Text}
    {offset : Nat}
    (within : offset < text.length) :
    chain (blanks ++ text) (offset + blanks.length) 0 = chain text offset 0 := by
  have walked :
      chainLength? 0 (blanks ++ text.take offset).reverse =
        chainLength? 0 (text.take offset).reverse := by
    rw [List.reverse_append]
    refine chainLength?_append_blanks ?_ (Nat.zero_le _)
    intro c member
    exact areBlank c (List.mem_reverse.mp member)
  simp only [chain, List.drop_zero, Nat.sub_zero, take_behind, walked]
  cases found : chainLength? 0 (text.take offset).reverse with
  | some length =>
      have atMost := chainLength?_le found
      rw [List.length_reverse] at atMost
      simp only
      rw [List.length_append, Nat.add_sub_assoc atMost, List.drop_length_add_append]
  | none =>
      -- The character at the end of the text is not before the offset.
      simp only [↓reduceIte]
      rw [List.drop_eq_nil_of_le, List.drop_eq_nil_of_le]
      · rw [List.length_take]
        omega
      · rw [List.length_append, List.length_append, List.length_take]
        omega

end Blanks

/-- Above a floor that is not the beginning of a text, receivers move with the text. -/
theorem chain_append_left
    {text : Text}
    {offset floor : Nat}
    (positive : 0 < floor)
    (front : Text) :
    chain (front ++ text) (offset + front.length) (floor + front.length) =
      chain text offset floor := by
  have reach :
      ((front ++ text).drop (floor + front.length)).take
          (offset + front.length - (floor + front.length)) =
        (text.drop floor).take (offset - floor) := by
    rw [drop_behind]
    congr 1
    omega
  have below :
      ((front ++ text).take (offset + front.length)).drop (floor + front.length - 1) =
        (text.take offset).drop (floor - 1) := by
    rw [take_behind, show floor + front.length - 1 = floor - 1 + front.length by omega,
      drop_behind]
  have notZero : ¬ floor = 0 := by omega
  have stillNotZero : ¬ floor + front.length = 0 := by omega
  simp only [chain, reach, below, notZero, stillNotZero, ↓reduceIte]

end Receiver

end TestAudit
