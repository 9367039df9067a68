import TestAudit.Proofs.Json.Escape
import TestAudit.Proofs.Run.Requirement
import TestAudit.Proofs.Text.Colour

namespace TestAudit.Results

/-!
# Colours in records

The output and the errors of a record are stripped of colours in one pass, the chunks of the
output put together before. A colour stays in a record just where a torn one stands in what
the final attempt of its spec left. Errors that are written out as values leave none.
-/

/-- The output that an attempt left, its chunks put together. -/
def capturedOutput (attempt : Json.Value) : Text :=
  (attempt.member "stdout").elements.flatMap chunkText

/-- The text that an error tells: the error itself or its message, if one of them is a string. -/
def toldText : Json.Value → Text
  | .string text => text
  | error => (error.member "message").characters

/-- The texts that an attempt left. -/
def leftTexts (attempt : Json.Value) : List Text :=
  capturedOutput attempt :: (attempt.member "errors").elements.map toldText

/-- The texts of a record that are stripped of colours. -/
def strippedTexts (record : TestRecord) : List Text :=
  record.stdout :: record.errors

/-- No colour stands in the output or the errors of a record of a document. -/
def ColoursAreGone (document : Json.Value) : Prop :=
  ∀ found, records document = .ok found →
    ∀ record ∈ found, ∀ text ∈ strippedTexts record, ¬ Text.HasColour text

/-- A torn colour stands in what the final attempt of a spec left. -/
def LeavesTorn (spec : Json.Value) : Prop :=
  ∃ final ∈ (attemptsOf spec).getLast?, ∃ text ∈ leftTexts final, Text.HasTorn text

/-! ## Errors -/

/-- A torn colour begins with the escape character. -/
theorem not_hasTorn_of_noEscape
    {text : Text}
    (noEscape : NoEscape text) :
    ¬ Text.HasTorn text := by
  rintro ⟨torn, ⟨colour, isColour, spread, _⟩, inText⟩
  obtain ⟨others, rfl, _⟩ := isColour.shape
  obtain ⟨_, _, rest, same, rfl⟩ := spread.shape
  obtain ⟨rfl, _⟩ := List.cons.inj same
  exact noEscape (inText.subset List.mem_cons_self)

/-- The text of an error is what it tells, or it is written out and holds no escape character. -/
theorem errorText_cases
    (error : Json.Value) :
    errorText error = toldText error ∨ toldText error = [] ∧ NoEscape (errorText error) := by
  cases error with
  | string text => exact Or.inl rfl
  | object members =>
      unfold errorText toldText
      dsimp only
      generalize (Json.Value.object members).member "message" = message
      cases message with
      | string text =>
          cases text with
          | nil => exact Or.inr ⟨rfl, .render .oneLine 0 _⟩
          | cons c rest => exact Or.inl rfl
      | _ => exact Or.inr ⟨rfl, .render .oneLine 0 _⟩
  | _ => exact Or.inr ⟨rfl, .nested _⟩

theorem hasTorn_errorText_iff
    (error : Json.Value) :
    Text.HasTorn (errorText error) ↔ Text.HasTorn (toldText error) := by
  obtain tells | ⟨nothing, noEscape⟩ := errorText_cases error
  · rw [tells]
  · rw [nothing, iff_false_left (not_hasTorn_of_noEscape noEscape)]
    exact not_hasTorn_of_noEscape List.not_mem_nil

/-! ## Records -/

/-- A colour is left in a record just where its spec leaves a torn one. -/
theorem exists_hasColour_iff
    {suiteFile : Text}
    {spec : Json.Value}
    {record : TestRecord}
    (isRecord : recordFor? suiteFile spec = some record) :
    (∃ text ∈ strippedTexts record, Text.HasColour text) ↔ LeavesTorn spec := by
  obtain ⟨final, isFinal, rfl⟩ := Option.map_eq_some_iff.mp isRecord
  calc
    (∃ text ∈ (capturedOutput final).stripColours ::
        (final.member "errors").elements.map fun error => (errorText error).stripColours,
      Text.HasColour text)
    _ ↔ Text.HasTorn (capturedOutput final) ∨
        ∃ error ∈ (final.member "errors").elements, Text.HasTorn (errorText error) := by
      simp only [List.exists_mem_cons_iff, List.mem_map, exists_exists_and_eq_and,
        Text.hasColour_stripColours_iff]
    _ ↔ ∃ text ∈ leftTexts final, Text.HasTorn text := by
      simp only [leftTexts, List.exists_mem_cons_iff, List.mem_map, exists_exists_and_eq_and,
        hasTorn_errorText_iff]
    _ ↔ LeavesTorn spec := by
      simp only [LeavesTorn, isFinal, Option.mem_some_iff, exists_eq_left']

/-! ## Documents -/

/-- A spec that leaves a torn colour has a record. -/
theorem LeavesTorn.exists_record
    {spec : Json.Value}
    (leaves : LeavesTorn spec)
    (suiteFile : Text) :
    ∃ record, recordFor? suiteFile spec = some record := by
  obtain ⟨final, isFinal, _⟩ := leaves
  rw [recordFor?, isFinal]
  exact ⟨_, rfl⟩

/--
Colours are gone from the records of a document exactly when none of its specs leaves a torn
one, and stripping a text a second time changes nothing exactly when no torn one stands in it.
-/
theorem coloursAreGone_iff
    (document : Json.Value) :
    (ColoursAreGone document ↔
      ∀ found, records document = .ok found →
        ∀ spec ∈ documentSpecs document, ¬ LeavesTorn spec.2) ∧
      ∀ text,
        Text.stripColours (Text.stripColours text) = Text.stripColours text ↔
          ¬ Text.HasTorn text := by
  refine ⟨?_, fun _ => Text.stripColours_stripColours_iff⟩
  refine forall_congr' fun found => forall_congr' fun read => ?_
  obtain rfl := eq_recordsFor_of_records read
  constructor
  · rintro areGone ⟨suiteFile, spec⟩ member leaves
    obtain ⟨record, isRecord⟩ := leaves.exists_record suiteFile
    obtain ⟨text, inRecord, hasColour⟩ := (exists_hasColour_iff isRecord).mpr leaves
    exact areGone record (List.mem_filterMap.mpr ⟨_, member, isRecord⟩) text inRecord hasColour
  · intro noTorn record member text inRecord hasColour
    obtain ⟨⟨suiteFile, spec⟩, inDocument, isRecord⟩ := List.mem_filterMap.mp member
    exact noTorn _ inDocument ((exists_hasColour_iff isRecord).mp ⟨text, inRecord, hasColour⟩)

/-- The output is a colour sequence with another one in it, and the outer one is left. -/
theorem not_coloursAreGone_of_torn_output :
    ¬ ColoursAreGone (.object [("suites", .array [.object [("specs", .array [.object [
      ("tests", .array [.object [("results", .array [.object [
        ("status", .string "passed"),
        ("stdout", .array [.string "\x1b[3", .string "\x1b[1m1m"])]])]])]])]])]) := by
  intro areGone
  refine areGone [{ title := [], status := .passed, stdout := "\x1b[31m" }] rfl _
    List.mem_cons_self "\x1b[31m" List.mem_cons_self ?_
  exact ⟨"\x1b[31m", ⟨"31", rfl, List.all_eq_true.mp rfl⟩, List.infix_rfl⟩

end TestAudit.Results
