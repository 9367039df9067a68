import TestAudit.Proofs.Criteria.ConfigLine
import TestAudit.Proofs.Json.Member

namespace TestAudit.Config

/-!
# Configurations that are written and read

A configuration is written entry by entry, each value in any spelling of its own. Reading
the lines of an entry adds that entry to what was read before, and nothing else, so reading
what was written gives the configuration back, without a warning.
-/

/-! ## Writing -/

/-- A nested key is written two blanks deep, with its value behind a colon and a blank. -/
def NestedLine (entry : Text × Text) (line : Text) : Prop :=
  ∃ written, Spelling entry.2 written ∧ line = "  " ++ entry.1 ++ ": " ++ written

/-- An item is written two blanks deep, behind a hyphen and a blank. -/
def ItemLine (item line : Text) : Prop :=
  ∃ written, Spelling item written ∧ line = "  - " ++ written

/-- The lines in which an entry of a configuration is written. -/
inductive EntryLines : Text × ConfigValue → List Text → Prop where
  | text {name value written : Text} :
      Spelling value written →
      EntryLines (name, .text value) [name ++ ": " ++ written]
  | map {name : Text} {entries : List (Text × Text)} {lines : List Text} :
      List.Forall₂ NestedLine entries lines →
      EntryLines (name, .map entries) ((name ++ ":") :: lines)
  | items {name : Text} {items lines : List Text} :
      List.Forall₂ ItemLine items lines →
      EntryLines (name, .items items) ((name ++ ":") :: lines)

/-- A text is a written configuration: the lines of its entries, in their order. -/
def IsWritten (config : Config) (text : Text) : Prop :=
  ∃ groups, List.Forall₂ EntryLines config groups ∧ text = Text.ofLines groups.flatten

/-- A value that can be written: no line is empty of a value, or more than one line. -/
def IsWritable : ConfigValue → Prop
  | .text value => value ≠ [] ∧ Text.OnOneLine value
  | .map entries =>
      (entries.map Prod.fst).Nodup ∧
        ∀ entry ∈ entries, IsKey entry.1 ∧ entry.2 ≠ [] ∧ Text.OnOneLine entry.2
  | .items items => items ≠ [] ∧ ∀ item ∈ items, Text.OnOneLine item

instance IsWritable.decidable : (value : ConfigValue) → Decidable (IsWritable value)
  | .text _ => inferInstanceAs (Decidable (_ ∧ _))
  | .map _ => inferInstanceAs (Decidable (_ ∧ _))
  | .items _ => inferInstanceAs (Decidable (_ ∧ _))

/-- A configuration that can be written. -/
structure Writable (config : Config) : Prop where
  different : (config.map Prod.fst).Nodup
  keys : ∀ entry ∈ config, IsKey entry.1
  values : ∀ entry ∈ config, IsWritable entry.2

/-! ## Written lines -/

/-- What each member of a list makes of those related to it holds of the whole other list. -/
theorem forall_mem_of_forall₂
    {α β : Type}
    {related : α → β → Prop}
    {holds : β → Prop}
    {firsts : List α}
    {seconds : List β}
    (areRelated : List.Forall₂ related firsts seconds)
    (each : ∀ first ∈ firsts, ∀ second, related first second → holds second) :
    ∀ second ∈ seconds, holds second := by
  induction areRelated with
  | nil => exact List.forall_mem_nil _
  | cons isRelated _ inductionHypothesis =>
      obtain ⟨head, others⟩ := List.forall_mem_cons.mp each
      exact List.forall_mem_cons.mpr ⟨head _ isRelated, inductionHypothesis others⟩

theorem EntryLines.onOneLine
    {name : Text}
    {value : ConfigValue}
    {lines : List Text}
    (areLines : EntryLines (name, value) lines)
    (isKey : IsKey name)
    (writable : IsWritable value) :
    ∀ line ∈ lines, Text.OnOneLine line := by
  have opening : Text.OnOneLine (name ++ ":") := isKey.onOneLine.append (by decide)
  have indent : Text.OnOneLine "  " := by decide
  have colon : Text.OnOneLine ": " := by decide
  have hyphen : Text.OnOneLine "  - " := by decide
  cases areLines with
  | text spelling =>
      refine List.forall_mem_singleton.mpr ?_
      exact (isKey.onOneLine.append colon).append (spelling.onOneLine writable.2)
  | map nested =>
      refine List.forall_mem_cons.mpr ⟨opening, forall_mem_of_forall₂ nested ?_⟩
      rintro entry isEntry _ ⟨written, spelling, rfl⟩
      obtain ⟨isNestedKey, _, isLine⟩ := writable.2 entry isEntry
      exact ((indent.append isNestedKey.onOneLine).append colon).append (spelling.onOneLine isLine)
  | items itemLines =>
      refine List.forall_mem_cons.mpr ⟨opening, forall_mem_of_forall₂ itemLines ?_⟩
      rintro item isItem _ ⟨written, spelling, rfl⟩
      exact hyphen.append (spelling.onOneLine (writable.2 item isItem))

/-! ## Reading what was written -/

/-- What has been read when the section of the last key is open and has come to a value. -/
def inside (before : Config) (name : Text) (value : ConfigValue) : Progress where
  entries := before ++ [(name, value)]
  openKey := some name

variable {name : Text} {before : Config}

/-- A line that changes what was read, and says nothing about it, is passed over. -/
theorem readLines_cons
    {number : Nat}
    {line : Text}
    {progress next : Progress}
    (reads : step number (classify line) progress = pure (.ok next))
    (lines : List Text) :
    readLines number (line :: lines) progress = readLines (number + 1) lines next := by
  rw [readLines, reads]
  rfl

/-- A key that was not there before opens a section at the end. -/
theorem step_key
    {progress : Progress}
    (isNew : name ∉ progress.entries.map Prod.fst)
    (number : Nat)
    (value : Text) :
    step number (.key name value) progress =
      pure (.ok (inside progress.entries name (openingValue value))) := by
  rw [step, Json.setMember_of_new isNew]
  rfl

/-- A change of the open section that says nothing is a change of the last value. -/
theorem inSection_inside
    (isNew : name ∉ before.map Prod.fst)
    {value next : ConfigValue}
    {change : Text → ConfigValue → Logged ConfigValue}
    (changes : change name value = pure next)
    (number : Nat)
    (shown : Text) :
    inSection number shown change (inside before name value) =
      pure (.ok (inside before name next)) := by
  have isSet := Json.setMember_last isNew value next
  simp only [inSection, inside, Json.lookup_last isNew, Option.getD_some, changes]
  exact congrArg (fun entries => pure (Except.ok (Progress.mk entries (some name)))) isSet

/-- Nested keys are added to the section that is open. -/
theorem readLines_nested
    (isNew : name ∉ before.map Prod.fst)
    {entries : List (Text × Text)}
    {lines : List Text}
    (nested : List.Forall₂ NestedLine entries lines)
    {read : List (Text × Text)}
    (different : ((read ++ entries).map Prod.fst).Nodup)
    (writable : ∀ entry ∈ entries, IsKey entry.1 ∧ entry.2 ≠ [])
    (number : Nat)
    (rest : List Text) :
    readLines number (lines ++ rest) (inside before name (.map read)) =
      readLines (number + lines.length) rest (inside before name (.map (read ++ entries))) := by
  induction nested generalizing number read with
  | nil => rw [List.append_nil]; rfl
  | @cons entry line entries lines isLine _ inductionHypothesis =>
      obtain ⟨written, spelling, rfl⟩ := isLine
      obtain ⟨⟨isKey, notEmpty⟩, othersWritable⟩ := List.forall_mem_cons.mp writable
      have apart := (List.nodup_append.mp (List.map_append ▸ different)).2.2
      have isNewHere : entry.1 ∉ read.map Prod.fst :=
        fun member => apart _ member _ List.mem_cons_self rfl
      have changes :
          withNested number name entry.1 entry.2 (.map read) =
            pure (.map (read ++ [entry])) := by
        rw [withNested, if_neg notEmpty, Json.setMember_of_new isNewHere]
      obtain ⟨shown, classified⟩ := classify_nested isKey spelling
      have reads :
          step number (classify ("  " ++ entry.1 ++ ": " ++ written))
              (inside before name (.map read)) =
            pure (.ok (inside before name (.map (read ++ [entry])))) := by
        rw [classified, step]
        exact inSection_inside isNew changes number shown
      rw [List.append_cons] at different
      rw [List.cons_append, readLines_cons reads, inductionHypothesis different othersWritable,
        ← List.append_cons, List.length_cons, Nat.add_assoc, Nat.add_comm 1]

/-- Items are added to the list that is open. -/
theorem readLines_items
    (isNew : name ∉ before.map Prod.fst)
    {items lines : List Text}
    (itemLines : List.Forall₂ ItemLine items lines)
    (read : List Text)
    (number : Nat)
    (rest : List Text) :
    readLines number (lines ++ rest) (inside before name (.items read)) =
      readLines (number + lines.length) rest (inside before name (.items (read ++ items))) := by
  induction itemLines generalizing number read with
  | nil => rw [List.append_nil]; rfl
  | @cons item line items lines isLine _ inductionHypothesis =>
      obtain ⟨written, spelling, rfl⟩ := isLine
      obtain ⟨shown, classified⟩ := classify_item spelling
      have reads :
          step number (classify ("  - " ++ written)) (inside before name (.items read)) =
            pure (.ok (inside before name (.items (read ++ [item])))) := by
        rw [classified, step]
        exact inSection_inside isNew rfl number shown
      rw [List.cons_append, readLines_cons reads, inductionHypothesis,
        ← List.append_cons, List.length_cons, Nat.add_assoc, Nat.add_comm 1]

/-- The first item turns an empty section into a list. -/
theorem step_firstItem
    (isNew : name ∉ before.map Prod.fst)
    (item shown : Text)
    (number : Nat) :
    step number (.item item shown) (inside before name (.map [])) =
      pure (.ok (inside before name (.items [item]))) := by
  rw [step]
  exact inSection_inside isNew rfl number shown

/-- The lines of an entry add the entry, if its key was not there before. -/
theorem readLines_entry
    {entry : Text × ConfigValue}
    {lines : List Text}
    (areLines : EntryLines entry lines)
    {progress : Progress}
    (isNew : entry.1 ∉ progress.entries.map Prod.fst)
    (isKey : IsKey entry.1)
    (writable : IsWritable entry.2)
    (number : Nat)
    (rest : List Text) :
    readLines number (lines ++ rest) progress =
      readLines (number + lines.length) rest (inside progress.entries entry.1 entry.2) := by
  have opens (value : Text) := step_key isNew number value
  cases areLines with
  | @text name value written spelling =>
      have reads := classify_text isKey spelling ▸ opens value
      rw [openingValue, if_neg writable.1] at reads
      exact readLines_cons reads rest
  | @map name entries lines nested =>
      have reads := classify_section isKey ▸ opens []
      have writableEntries : ∀ entry ∈ entries, IsKey entry.1 ∧ entry.2 ≠ [] :=
        fun entry member => (writable.2 entry member).imp_right And.left
      have different : (([] ++ entries).map Prod.fst).Nodup := writable.1
      rw [List.cons_append, readLines_cons reads]
      refine (readLines_nested isNew nested different writableEntries (number + 1) rest).trans ?_
      rw [List.length_cons, Nat.add_assoc, Nat.add_comm 1]
      rfl
  | @items name items lines itemLines =>
      have reads := classify_section isKey ▸ opens []
      cases itemLines with
      | nil => exact (writable.1 rfl).elim
      | @cons item line items lines isLine itemLines =>
          obtain ⟨written, spelling, rfl⟩ := isLine
          obtain ⟨shown, classified⟩ := classify_item spelling
          have readsFirst := classified ▸ step_firstItem isNew item shown (number + 1)
          rw [List.cons_append, readLines_cons reads, List.cons_append]
          refine (readLines_cons readsFirst _).trans ?_
          refine (readLines_items isNew itemLines [item] (number + 1 + 1) rest).trans ?_
          rw [List.length_cons, List.length_cons, Nat.add_assoc, Nat.add_assoc, Nat.add_comm 1,
            Nat.add_comm 1, Nat.add_assoc]
          rfl

/-- The lines of all entries add them in their order. -/
theorem readLines_entries
    {config : Config}
    {groups : List (List Text)}
    (areLines : List.Forall₂ EntryLines config groups)
    {progress : Progress}
    (different : ((progress.entries ++ config).map Prod.fst).Nodup)
    (keys : ∀ entry ∈ config, IsKey entry.1)
    (values : ∀ entry ∈ config, IsWritable entry.2)
    (number : Nat) :
    ∃ openKey,
      readLines number groups.flatten progress =
        pure (.ok { entries := progress.entries ++ config, openKey }) := by
  induction areLines generalizing number progress with
  | nil => exact ⟨progress.openKey, by rw [List.append_nil]; rfl⟩
  | @cons entry lines config groups isEntry _ inductionHypothesis =>
      have apart := (List.nodup_append.mp (List.map_append ▸ different)).2.2
      have isNew : entry.1 ∉ progress.entries.map Prod.fst :=
        fun member => apart _ member _ List.mem_cons_self rfl
      obtain ⟨isKey, otherKeys⟩ := List.forall_mem_cons.mp keys
      obtain ⟨writable, otherValues⟩ := List.forall_mem_cons.mp values
      have stillDifferent :
          (((inside progress.entries entry.1 entry.2).entries ++ config).map Prod.fst).Nodup := by
        rwa [List.append_cons] at different
      obtain ⟨openKey, isRead⟩ :=
        inductionHypothesis stillDifferent otherKeys otherValues (number + lines.length)
      refine ⟨openKey, ?_⟩
      rw [List.flatten_cons, readLines_entry isEntry isNew isKey writable, isRead,
        List.append_cons]
      rfl

/--
A configuration that is written, each of its values between quotes or as it is, is read as
the configuration that it was: with the same keys, in the same order, with values of the
same kinds and texts. Nothing is said about any line.
-/
theorem parse_of_isWritten
    (config : Config)
    (writable : Writable config)
    (text : Text)
    (isWritten : IsWritten config text) :
    parse text = { log := [], value := .ok config } := by
  obtain ⟨groups, areLines, rfl⟩ := isWritten
  have groupsOnOneLine : ∀ lines ∈ groups, ∀ line ∈ lines, Text.OnOneLine line :=
    forall_mem_of_forall₂ areLines fun entry isEntry _ isGroup =>
      isGroup.onOneLine (writable.keys entry isEntry) (writable.values entry isEntry)
  have onOneLine : ∀ line ∈ groups.flatten, Text.OnOneLine line := by
    intro line member
    obtain ⟨lines, isGroup, inLines⟩ := List.mem_flatten.mp member
    exact groupsOnOneLine lines isGroup line inLines
  have different : ((({} : Progress).entries ++ config).map Prod.fst).Nodup := writable.different
  obtain ⟨openKey, isRead⟩ :=
    readLines_entries areLines different writable.keys writable.values 1
  rw [parse, Text.lines_ofLines onOneLine, isRead]
  rfl

/-- Values that read like other lines, have blanks at their ends, or quotes of their own. -/
theorem parse_of_isWritten_of_marks :
    let config : Config := [
      ("project-name", .text "Tasks: v2 # beta"),
      ("acceptance-criteria", .map [("AC-1", "- Login: 'valid'"), ("AC-2", "\x22 quoted \x22")]),
      ("tags", .items ["#nightly", "", " spaced "]),
      ("minimum-tests", .map [])]
    let text : Text := Text.ofLines [
      "project-name: Tasks: v2 # beta",
      "acceptance-criteria:",
      "  AC-1: - Login: 'valid'",
      "  AC-2: '\x22 quoted \x22'",
      "tags:",
      "  - #nightly",
      "  - \x22\x22",
      "  - ' spaced '",
      "minimum-tests:"]
    Writable config ∧ IsWritten config text ∧ parse text = { log := [], value := .ok config } := by
  intro config text
  have writable : Writable config := ⟨by decide, by decide, by decide⟩
  have bare {value : Text}
      (plain : value ≠ [] ∧ value.trim = value ∧ isQuoted value = false) : Spelling value value :=
    .of_not_isQuoted plain.1 plain.2.1 plain.2.2
  have double (value : Text) : Spelling value ('\x22' :: value ++ ['\x22']) := .quoted (Or.inl rfl)
  have single (value : Text) : Spelling value ('\x27' :: value ++ ['\x27']) := .quoted (Or.inr rfl)
  have isWritten : IsWritten config text := by
    refine ⟨[["project-name: Tasks: v2 # beta"],
      ["acceptance-criteria:", "  AC-1: - Login: 'valid'", "  AC-2: '\x22 quoted \x22'"],
      ["tags:", "  - #nightly", "  - \x22\x22", "  - ' spaced '"], ["minimum-tests:"]], ?_, rfl⟩
    refine .cons (.text (bare (by decide))) (.cons (.map ?_) (.cons (.items ?_) ?_))
    · exact .cons ⟨_, bare (by decide), rfl⟩ (.cons ⟨_, single _, rfl⟩ .nil)
    · refine .cons ⟨_, bare (by decide), rfl⟩ ?_
      exact .cons ⟨_, double _, rfl⟩ (.cons ⟨_, single _, rfl⟩ .nil)
    · exact .cons (.map .nil) .nil
  exact ⟨writable, isWritten, parse_of_isWritten config writable text isWritten⟩

end TestAudit.Config
