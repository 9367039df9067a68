import TestAudit.Criteria.Config
import TestAudit.Proofs.Json.Member
import TestAudit.Proofs.Lookup
import TestAudit.Proofs.Outcome

namespace TestAudit.Config

/-!
# Sections of configurations that are read

Reading a line sets one entry at most, so what holds of a value at first, and is kept by every
change of a section, holds of all values that are read: the names in a section differ, and
every value holds something. The keys that are read differ, too.
-/

/-! ## What every line keeps -/

/-- What every line keeps of the progress, all lines keep. -/
theorem readLines_keeps
    {Holds : Progress → Prop}
    (steps :
      ∀ {number line progress next},
        Holds progress →
        (step number line progress).value = .ok next →
        Holds next)
    {number : Nat}
    {lines : List Text}
    {progress last : Progress}
    (holds : Holds progress)
    (reads : (readLines number lines progress).value = .ok last) :
    Holds last := by
  induction lines generalizing number progress with
  | nil =>
      cases reads
      exact holds
  | cons line others inductionHypothesis =>
      rw [readLines, Logged.value_bind] at reads
      split at reads
      next next stepped => exact inductionHypothesis (steps holds stepped) reads
      next => cases reads

theorem value_parse
    (text : Text) :
    (parse text).value = (readLines 1 text.lines {}).value.map (·.entries) :=
  rfl

/-- A text that holds a configuration is read line by line, and the entries are its own. -/
theorem exists_readLines_of_parse
    {text : Text}
    {config : Config}
    (isConfig : (parse text).value = .ok config) :
    ∃ last, (readLines 1 text.lines {}).value = .ok last ∧ last.entries = config := by
  rw [value_parse] at isConfig
  cases reads : (readLines 1 text.lines {}).value with
  | error fault =>
      rw [reads] at isConfig
      cases isConfig
  | ok last =>
      rw [reads] at isConfig
      cases isConfig
      exact ⟨last, rfl, rfl⟩

/-! ## Values -/

/-- What holds of each value at first, and is kept by every change of a section. -/
structure IsKept (Holds : ConfigValue → Prop) : Prop where
  opening : ∀ text, Holds (openingValue text)
  withItem :
    ∀ number key item {value}, Holds value → Holds (withItem number key item value).value
  withNested :
    ∀ number key name text {value},
      Holds value →
      Holds (withNested number key name text value).value

namespace IsKept

variable {Holds : ConfigValue → Prop} {progress next : Progress} {number : Nat}

theorem inSection
    (kept : IsKept Holds)
    {shown : Text}
    {change : Text → ConfigValue → Logged ConfigValue}
    (keeps : ∀ key value, Holds value → Holds (change key value).value)
    (holds : ∀ entry ∈ progress.entries, Holds entry.2)
    (changes : (inSection number shown change progress).value = .ok next) :
    ∀ entry ∈ next.entries, Holds entry.2 := by
  unfold Config.inSection at changes
  split at changes
  · cases changes
  next key _ =>
    cases changes
    intro entry member
    rcases Json.mem_of_mem_setMember member with rfl | isOld
    · refine keeps key _ ?_
      cases found : progress.entries.lookup key with
      | none => exact kept.opening []
      | some value => exact holds (key, value) (Lookup.mem_of_lookup found)
    · exact holds entry isOld

/-- One more line keeps it. -/
theorem step
    (kept : IsKept Holds)
    {line : Line}
    (holds : ∀ entry ∈ progress.entries, Holds entry.2)
    (steps : (step number line progress).value = .ok next) :
    ∀ entry ∈ next.entries, Holds entry.2 := by
  cases line with
  | silent =>
      cases steps
      exact holds
  | key name value =>
      cases steps
      intro entry member
      rcases Json.mem_of_mem_setMember member with rfl | isOld
      · exact kept.opening value
      · exact holds entry isOld
  | broken shown => cases steps
  | item value shown =>
      exact kept.inSection (fun key _ => kept.withItem number key value) holds steps
  | nested name value shown =>
      exact kept.inSection (fun key _ => kept.withNested number key name value) holds steps
  | deep shown => exact kept.inSection (fun _ _ => id) holds steps

/-- It holds of every value in a configuration that a text holds. -/
theorem parse
    (kept : IsKept Holds)
    {text : Text}
    {config : Config}
    (isConfig : (parse text).value = .ok config) :
    ∀ entry ∈ config, Holds entry.2 := by
  obtain ⟨last, reads, rfl⟩ := exists_readLines_of_parse isConfig
  have atFirst : ∀ entry ∈ ({} : Progress).entries, Holds entry.2 := List.forall_mem_nil _
  exact readLines_keeps kept.step atFirst reads

end IsKept

/-! ## Names in a section -/

/-- The names in a section differ. -/
def NamesDiffer : ConfigValue → Prop
  | .map entries => (entries.map Prod.fst).Nodup
  | .text _ | .items _ => True

/-- The names in every section differ. -/
def SectionsDiffer (config : Config) : Prop :=
  ∀ entry ∈ config, NamesDiffer entry.2

theorem isKept_namesDiffer : IsKept NamesDiffer where
  opening text := by
    unfold openingValue
    split
    · exact List.nodup_nil
    · trivial
  withItem number key item value differ := by
    unfold withItem
    split
    · trivial
    · trivial
    · exact differ
  withNested number key name text value differ := by
    unfold withNested
    split
    · change (List.map Prod.fst (if text = [] then _ else _)).Nodup
      split
      · exact differ
      · exact Json.nodup_setMember differ
    · exact differ

/-- In a configuration that a text holds, the names in every section differ. -/
theorem sectionsDiffer_parse
    {text : Text}
    {config : Config}
    (isConfig : (parse text).value = .ok config) :
    SectionsDiffer config :=
  isKept_namesDiffer.parse isConfig

/-! ## Values that hold something -/

/-- A value holds something: a text or list is not empty, and no key is nested without a text. -/
def IsFilled : ConfigValue → Prop
  | .text text => text ≠ []
  | .map entries => ∀ entry ∈ entries, entry.2 ≠ []
  | .items items => items ≠ []

theorem isKept_isFilled : IsKept IsFilled where
  opening text := by
    unfold openingValue
    split
    next => exact List.forall_mem_nil _
    next notEmpty => exact notEmpty
  withItem number key item value filled := by
    unfold withItem
    split
    · exact List.cons_ne_nil _ _
    · exact List.append_ne_nil_of_right_ne_nil _ (List.cons_ne_nil _ _)
    · exact filled
  withNested number key name text value filled := by
    unfold withNested
    split
    · change ∀ entry ∈ (if text = [] then _ else _), _
      split
      next => exact filled
      next notEmpty =>
        intro entry member
        rcases Json.mem_of_mem_setMember member with rfl | isOld
        · exact notEmpty
        · exact filled entry isOld
    · exact filled

/-! ## Keys -/

/-- The keys of a configuration differ. -/
def KeysDiffer (config : Config) : Prop :=
  (config.map Prod.fst).Nodup

theorem keysDiffer_step
    {number : Nat}
    {line : Line}
    {progress next : Progress}
    (differ : KeysDiffer progress.entries)
    (steps : (step number line progress).value = .ok next) :
    KeysDiffer next.entries := by
  have inOpen
      {shown : Text}
      {change : Text → ConfigValue → Logged ConfigValue}
      (changes : (inSection number shown change progress).value = .ok next) :
      KeysDiffer next.entries := by
    unfold inSection at changes
    split at changes
    · cases changes
    · cases changes
      exact Json.nodup_setMember differ
  cases line with
  | silent =>
      cases steps
      exact differ
  | key name value =>
      cases steps
      exact Json.nodup_setMember differ
  | broken shown => cases steps
  | item value shown => exact inOpen steps
  | nested name value shown => exact inOpen steps
  | deep shown => exact inOpen steps

/-- The keys that lines are read into differ. -/
theorem keysDiffer_readLines
    {number : Nat}
    {lines : List Text}
    {last : Progress}
    (reads : (readLines number lines {}).value = .ok last) :
    KeysDiffer last.entries := by
  have atFirst : KeysDiffer ({} : Progress).entries := List.nodup_nil
  exact readLines_keeps keysDiffer_step atFirst reads

end TestAudit.Config
