import TestAudit.Proofs.Finding.Scan
import TestAudit.Proofs.Pattern.Translation
import TestAudit.Proofs.Source.Translation

namespace TestAudit.Scan

/-!
# Scans of texts that are moved down

Blanks in front of a text move its calls and its mask, and with them every region in which
a rule is searched for. A region that is moved has the same matches on the same receivers,
so the rules offend at offsets that are greater by the number of blanks, and what is
reported moves down by as many lines as there are line feeds among them.
-/

/-- A violation some lines further down, with the lines around it in a text of these lines. -/
def loweredBy (count : Nat) (lines : List Text) (violation : Violation) : Violation :=
  { violation with
    line := violation.line + count
    context := contextWindow lines (violation.line + count) }

variable {language : Language} {label text blanks : Text} {rule : Rule}

theorem lineNumber_behind
    (front text : Text)
    (offset : Nat) :
    lineNumber (front ++ text) (offset + front.length) =
      lineNumber text offset + front.count '\n' := by
  rw [lineNumber, Text.take_behind, List.count_append, lineNumber]
  omega

/-! ## Regions -/

/-- A region has the same matches on the same receivers as another, at greater offsets. -/
structure MatchesBehind (distance : Nat) (rule : Rule) (region other : Region) : Prop where
  occurrences :
    rule.pattern.occurrences other.excerpt =
      (rule.pattern.occurrences region.excerpt).map (·.movedBy distance)
  receivers :
    ∀ occurrence ∈ rule.pattern.occurrences region.excerpt,
      Receiver.chain other.text (occurrence.offset + distance) other.start =
        Receiver.chain region.text occurrence.offset region.start

theorem MatchesBehind.offendsIn_iff
    {distance offset : Nat}
    {region other : Region}
    (behind : MatchesBehind distance rule region other) :
    OffendsIn rule other offset ↔
      ∃ first, OffendsIn rule region first ∧ offset = first + distance := by
  constructor
  · rintro ⟨_, member, rfl, harmful⟩
    rw [behind.occurrences] at member
    obtain ⟨occurrence, occurs, rfl⟩ := List.mem_map.mp member
    refine ⟨occurrence.offset, ⟨occurrence, occurs, rfl, ?_⟩, rfl⟩
    rw [← behind.receivers occurrence occurs]
    exact harmful
  · rintro ⟨_, ⟨occurrence, occurs, rfl, harmful⟩, rfl⟩
    refine ⟨occurrence.movedBy distance, ?_, rfl, ?_⟩
    · rw [behind.occurrences]
      exact List.mem_map_of_mem occurs
    · rw [behind.receivers occurrence occurs]
      exact harmful

/-- A region behind the beginning of a text moves with the text. -/
theorem matchesBehind_of_pos
    (rule : Rule)
    (front text : Text)
    {start : Nat}
    (positive : 0 < start)
    (stop : Nat) :
    MatchesBehind front.length rule ⟨text, start, stop⟩
      ⟨front ++ text, start + front.length, stop + front.length⟩ where
  occurrences := by
    have notFirst : ¬ start = 0 := by omega
    have stillNotFirst : ¬ start + front.length = 0 := by omega
    have before :
        start + front.length - 1 = start - 1 + front.length := by omega
    have size : stop + front.length - (start + front.length) = stop - start := by omega
    have sameBefore :
        Region.before ⟨front ++ text, start + front.length, stop + front.length⟩ =
          Region.before ⟨text, start, stop⟩ := by
      simp only [Region.before, notFirst, stillNotFirst, ↓reduceIte, before, Text.drop_behind]
    have sameChars :
        Region.chars ⟨front ++ text, start + front.length, stop + front.length⟩ =
          Region.chars ⟨text, start, stop⟩ := by
      simp only [Region.chars, Text.drop_behind, size]
    simp only [Pattern.occurrences, Region.excerpt, sameBefore, sameChars]
    exact rule.pattern.occurrencesFrom_add _ _ _ _ _
  receivers := by
    intro occurrence _
    exact Receiver.chain_append_left positive front

/-- The whole of a text moves behind blanks. -/
theorem matchesBehind_whole
    (areBlank : ∀ c ∈ blanks, Text.isBlank c = true)
    (rule : Rule)
    (text : Text) :
    MatchesBehind blanks.length rule (Region.whole text) (Region.whole (blanks ++ text)) where
  occurrences := by
    have allChars (text : Text) : (Region.whole text).chars = text := by
      simp [Region.whole, Region.chars]
    simp only [Pattern.occurrences, Region.excerpt, allChars]
    exact Pattern.occurrencesFrom_behind_blanks rule.pattern_isSolid areBlank text
  receivers := by
    intro occurrence occurs
    exact Receiver.chain_behind_blanks areBlank (Pattern.offset_of_mem_occurrences occurs).2.2

/-! ## Offences -/

section Blanks

variable (areBlank : ∀ c ∈ blanks, Text.isBlank c = true)

include areBlank

/-- Behind blanks, a rule offends in the regions that are moved, and in no other. -/
theorem offends_behind_blanks_iff
    {offset : Nat} :
    Offends language (blanks ++ text) rule offset ↔
      ∃ first, Offends language text rule first ∧ offset = first + blanks.length := by
  have inWhole :=
    @MatchesBehind.offendsIn_iff _ _ offset _ _
      (matchesBehind_whole areBlank rule (language.mask text))
  have inCalls :
      (∃ region ∈
          (language.callSpans (blanks ++ text) CallSpan.defaultWindow).map
            (·.region (blanks ++ text)),
          OffendsIn rule region offset) ↔
        ∃ first,
          (∃ region ∈
              (language.callSpans text CallSpan.defaultWindow).map (·.region text),
            OffendsIn rule region first) ∧
          offset = first + blanks.length := by
    have inCall
        {span : CallSpan}
        (member : span ∈ language.callSpans text CallSpan.defaultWindow) :
        OffendsIn rule ((span.movedBy blanks.length).region (blanks ++ text)) offset ↔
          ∃ first, OffendsIn rule (span.region text) first ∧ offset = first + blanks.length := by
      have bounds := (language.foundFrom_callSpans text CallSpan.defaultWindow).bounds member
      exact (matchesBehind_of_pos rule blanks text (by omega) span.stop).offendsIn_iff
    rw [language.callSpans_behind_blanks areBlank, List.map_map]
    constructor
    · rintro ⟨_, isRegion, offends⟩
      obtain ⟨span, member, rfl⟩ := List.mem_map.mp isRegion
      obtain ⟨first, offendsFirst, same⟩ := (inCall member).mp offends
      exact ⟨first, ⟨_, List.mem_map_of_mem member, offendsFirst⟩, same⟩
    · rintro ⟨first, ⟨_, isRegion, offends⟩, same⟩
      obtain ⟨span, member, rfl⟩ := List.mem_map.mp isRegion
      exact ⟨_, List.mem_map_of_mem member, (inCall member).mpr ⟨first, offends, same⟩⟩
  unfold Offends regionsFor
  cases rule.scope with
  | call =>
      simp only [inCalls]
      grind
  | file =>
      simp only [List.exists_mem_cons_iff, language.mask_behind_blanks areBlank, inWhole, inCalls]
      grind

/-- Behind blanks, a scan reports the same violations, moved down by the line feeds. -/
theorem value_scan_behind_blanks
    (label text : Text)
    (language : Option Language) :
    (scan label (blanks ++ text) language).value =
      (scan label text language).value.map
        (loweredBy (blanks.count '\n') ((blanks ++ text).splitOn '\n')) := by
  cases language with
  | none => rfl
  | some language =>
      refine @eq_of_pairwise_listedBefore _ (fun violation => (violation.line, violation.id)) _ _
        (pairwise_violationsOf label (blanks ++ text) _) ?_ ?_
      · refine List.pairwise_map.mpr ((pairwise_violationsOf label text _).imp ?_)
        intro first second before
        simp only [ListedBefore, loweredBy]
        rcases before with less | ⟨sameLine, ordered⟩
        · exact Or.inl (by omega)
        · exact Or.inr ⟨by omega, ordered⟩
      · intro violation
        rw [mem_scan_iff, List.mem_map]
        constructor
        · rintro ⟨rule, _, offends, rfl⟩
          obtain ⟨offset, offendsFirst, rfl⟩ := (offends_behind_blanks_iff areBlank).mp offends
          refine ⟨_, mem_scan_iff.mpr ⟨rule, offset, offendsFirst, rfl⟩, ?_⟩
          rw [lineNumber_behind]
          rfl
        · rintro ⟨_, member, rfl⟩
          obtain ⟨rule, offset, offends, rfl⟩ := mem_scan_iff.mp member
          refine ⟨rule, _, (offends_behind_blanks_iff areBlank).mpr ⟨offset, offends, rfl⟩, ?_⟩
          rw [lineNumber_behind]
          rfl

end Blanks

/--
Line feeds in front of a text move its calls and its mask by as many characters, and what
a scan reports by as many lines: the rest of a violation, save the lines shown around it,
stays as it is.
-/
theorem scan_translated
    (label text : Text)
    (language : Option Language)
    (count : Nat) :
    let lowered : Text := List.replicate count '\n' ++ text
    (scan label lowered language).value =
        (scan label text language).value.map (loweredBy count (lowered.splitOn '\n')) ∧
      ∀ spoken : Language,
        (∀ window,
          spoken.callSpans lowered window =
            (spoken.callSpans text window).map (·.movedBy count)) ∧
          spoken.mask lowered = List.replicate count '\n' ++ spoken.mask text := by
  have areBlank : ∀ c ∈ List.replicate count '\n', Text.isBlank c = true := by
    intro c member
    rw [List.eq_of_mem_replicate member]
    rfl
  refine ⟨?_, fun spoken => ⟨fun window => ?_, spoken.mask_behind_blanks areBlank text⟩⟩
  · have moved := value_scan_behind_blanks areBlank label text language
    rwa [List.count_replicate_self] at moved
  · have moved := spoken.callSpans_behind_blanks areBlank window text
    rwa [List.length_replicate] at moved

end TestAudit.Scan
