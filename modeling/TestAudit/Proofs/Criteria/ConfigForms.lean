import TestAudit.Proofs.Criteria.ConfigParts
import TestAudit.Proofs.Criteria.Describing
import TestAudit.Proofs.Criteria.Source
import TestAudit.Proofs.Criteria.WrittenConfig

namespace TestAudit

/-!
# Two forms of one section

Criteria are written in a configuration as nested keys or as list items. Nested keys go up to
their colons, items are read as titles are, and both are read as the same identifiers and
descriptions. Nothing else in a configuration depends on how its criteria are written: a section
between two parts is laid over the first, and the second over the section.
-/

/-! ## Lines around a section -/

namespace Config

variable {lines others : List Text}

/-- The configuration that lines hold. -/
def read? (lines : List Text) : Option Config :=
  (readLines 1 lines {}).value.toOption.map (·.entries)

theorem toOption_parse
    (text : Text) :
    (parse text).value.toOption = read? text.lines := by
  rw [value_parse, read?]
  cases (readLines 1 text.lines {}).value <;> rfl

/-- Lines that begin at the margin are laid over the lines before them. -/
theorem read?_append
    (begins : BeginAtMargin others) :
    read? (lines ++ others) =
      (read? lines).bind fun first => (read? others).map (Json.overlaid first) := by
  rw [read?, read?, readLines_append, Logged.value_bind]
  cases reads : (readLines 1 lines {}).value with
  | error fault => rfl
  | ok last =>
      obtain ⟨value, _⟩ := readsAlike_behind reads begins
      change (readLines (1 + lines.length) others last).value.toOption.map _ =
        (read? others).map (Json.overlaid last.entries)
      rw [Nat.add_comm 1, read?]
      generalize (readLines 1 others {}).value = alone at value ⊢
      generalize (readLines (lines.length + 1) others last).value = whole at value ⊢
      cases value with
      | ok follows => exact congrArg some follows.entries
      | error => rfl

/-- The lines of one entry hold that entry and nothing else. -/
theorem read?_of_entryLines
    {entry : Text × ConfigValue}
    (areLines : EntryLines entry lines)
    (isKey : IsKey entry.1)
    (writable : IsWritable entry.2) :
    read? lines = some [entry] := by
  have isNew : entry.1 ∉ ({} : Progress).entries.map Prod.fst := List.not_mem_nil
  have isRead := readLines_entry areLines isNew isKey writable 1 []
  rw [List.append_nil] at isRead
  rw [read?, isRead]
  rfl

end Config

/-! ## The section of criteria -/

namespace CriteriaSource

/-- An identifier and a description that stand on one line as they are, in either form. -/
structure IsPlain (entry : Text × Text) : Prop where
  isId : Title.isId entry.1 = true
  notEmpty : entry.2 ≠ []
  trimmed : entry.2.trim = entry.2
  onOneLine : Text.OnOneLine entry.2
  noColon : ∀ c ∈ entry.2.head?, c ≠ ':'
  notQuoted : Config.isQuoted entry.2 = false

/-- A criterion as it is written behind the opening of its line. -/
def written (entry : Text × Text) : Text :=
  entry.1 ++ ": " ++ entry.2

/-- The section of criteria, with one line for each of them behind the given opening. -/
def sectionLines (opening : Text) (entries : List (Text × Text)) : List Text :=
  (criteriaKey ++ ":") :: entries.map fun entry => opening ++ written entry

/-- What opens the line of a nested key. -/
def keyOpening : Text :=
  "  "

/-- What opens the line of a list item. -/
def itemOpening : Text :=
  "  - "

variable {entry : Text × Text} {entries : List (Text × Text)} {first last config other : Config}

/-! ## Lines of the section -/

theorem isKey_criteriaKey : Config.IsKey criteriaKey := by
  decide

theorem isKey_of_isIdentifier
    {id : Text}
    (identifier : Title.IsIdentifier id) :
    Config.IsKey id := by
  obtain ⟨digits, rfl, _, areDigits⟩ := identifier
  refine ⟨by decide, List.forall_mem_append.mpr ⟨List.all_eq_true.mp rfl, fun c member => ?_⟩⟩
  rw [Config.isKeyChar, Text.isWord_of_isDigit (areDigits c member), Bool.true_or]

namespace IsPlain

theorem identifier
    (plain : IsPlain entry) :
    Title.IsIdentifier entry.1 :=
  Title.isIdentifier_of_isId plain.isId

theorem spelling
    (plain : IsPlain entry) :
    Config.Spelling entry.2 entry.2 :=
  .of_not_isQuoted plain.notEmpty plain.trimmed plain.notQuoted

theorem nestedLine
    (plain : IsPlain entry) :
    Config.NestedLine entry (keyOpening ++ written entry) :=
  ⟨entry.2, plain.spelling, by simp [keyOpening, written]⟩

/-- What is written for a criterion begins with its mark and ends as its description does. -/
theorem tight_written
    (plain : IsPlain entry) :
    Text.Tight (written entry) := by
  obtain ⟨digits, isMarked, _⟩ := plain.identifier
  obtain ⟨front, last, isLast, notBlank⟩ := plain.spelling.tight.last
  rw [written, isMarked, isLast]
  exact ⟨⟨'A', _, rfl, by decide⟩, ⟨_, last, (List.append_assoc _ _ _).symm, notBlank⟩⟩

theorem itemLine
    (plain : IsPlain entry) :
    Config.ItemLine (written entry) (itemOpening ++ written entry) := by
  have tight := plain.tight_written
  obtain ⟨first, rest, shape, _⟩ := tight.head
  refine ⟨written entry, .bare (shape ▸ List.cons_ne_nil first rest)
    (tight.trim_append (List.forall_mem_nil _)) fun quote inner isQuote wrapped => ?_, rfl⟩
  obtain ⟨digits, isMarked, _⟩ := plain.identifier
  rw [written, isMarked] at wrapped
  rcases isQuote with rfl | rfl <;> cases wrapped

theorem onOneLine_written
    (plain : IsPlain entry) :
    Text.OnOneLine (written entry) :=
  ((isKey_of_isIdentifier plain.identifier).onOneLine.append (by decide)).append plain.onOneLine

theorem firstLine_description
    (plain : IsPlain entry) :
    Title.firstLine entry.2 = entry.2 := by
  have oneLine : '\n' ∉ entry.2 := fun member => absurd (plain.onOneLine _ member) (by decide)
  simpa using Title.firstLine_append oneLine (Or.inl rfl)

/-- An item is read as the title that it looks like: up to its colon, and from there on. -/
theorem described?_written
    (plain : IsPlain entry) :
    Title.described? (written entry) = some entry := by
  obtain ⟨c, rest, isFirst, notBlank⟩ := plain.spelling.tight.head
  have areSeparators : ∀ c ∈ (": " : Text), Title.isSeparator c = true :=
    List.all_eq_true.mp rfl
  have stops : ∀ c ∈ entry.2.head?, Title.isSeparator c = false := by
    intro d isHead
    have notColon := plain.noColon d isHead
    rw [isFirst] at isHead
    cases isHead
    simp [Title.isSeparator, notColon, notBlank]
  have noDigit : ∀ c ∈ ((": " : Text) ++ entry.2).head?, Text.isDigit c = false := by
    rintro _ ⟨⟩
    decide
  have isLine : Title.lineAfter? Title.isSeparator ((": " : Text) ++ entry.2) = some entry.2 := by
    rw [Title.lineAfter?, Text.takeWhile_append_of_head areSeparators stops,
      Text.dropWhile_append_of_head areSeparators stops, isFirst]
    exact congrArg some (isFirst ▸ plain.firstLine_description)
  rw [written, List.append_assoc, Title.described?,
    Title.idAtStart?_append plain.identifier noDigit]
  dsimp only
  rw [isLine, Option.map_some, plain.trimmed]

end IsPlain

section Section

variable (plain : ∀ entry ∈ entries, IsPlain entry)

include plain

theorem filterMap_described?_written :
    (entries.map written).filterMap Title.described? = entries := by
  induction entries with
  | nil => rfl
  | cons entry others inductionHypothesis =>
      obtain ⟨isPlain, othersPlain⟩ := List.forall_mem_cons.mp plain
      rw [List.map_cons, List.filterMap_cons, isPlain.described?_written]
      exact congrArg (entry :: ·) (inductionHypothesis othersPlain)

theorem forall₂_nestedLine :
    List.Forall₂ Config.NestedLine entries
      (entries.map fun entry => keyOpening ++ written entry) := by
  rw [List.forall₂_map_right_iff, List.forall₂_same]
  exact fun entry member => (plain entry member).nestedLine

theorem forall₂_itemLine :
    List.Forall₂ Config.ItemLine (entries.map written)
      (entries.map fun entry => itemOpening ++ written entry) := by
  rw [List.forall₂_map_right_iff, List.forall₂_map_left_iff, List.forall₂_same]
  exact fun entry member => (plain entry member).itemLine

theorem read?_nested_section
    (different : (entries.map Prod.fst).Nodup) :
    Config.read? (sectionLines keyOpening entries) = some [(criteriaKey, .map entries)] := by
  refine Config.read?_of_entryLines (.map (forall₂_nestedLine plain)) isKey_criteriaKey
    ⟨different, fun entry member => ?_⟩
  have isPlain := plain entry member
  exact ⟨isKey_of_isIdentifier isPlain.identifier, isPlain.notEmpty, isPlain.onOneLine⟩

theorem read?_item_section
    (notEmpty : entries ≠ []) :
    Config.read? (sectionLines itemOpening entries) =
      some [(criteriaKey, .items (entries.map written))] := by
  refine Config.read?_of_entryLines (.items (forall₂_itemLine plain)) isKey_criteriaKey
    ⟨by simpa using notEmpty, fun item member => ?_⟩
  obtain ⟨entry, isEntry, rfl⟩ := List.mem_map.mp member
  exact (plain entry isEntry).onOneLine_written

end Section

/-! ## A section between two parts -/

/-- A configuration in which a section of criteria stands between two parts. -/
def withSection (value : ConfigValue) (first last : Config) : Config :=
  Json.overlaid first (Json.overlaid [(criteriaKey, value)] last)

theorem read?_around_section
    {opening : Text}
    {value : ConfigValue}
    (isSection : Config.read? (sectionLines opening entries) = some [(criteriaKey, value)])
    {before after : List Text}
    (begins : Config.BeginAtMargin after) :
    Config.read? (before ++ sectionLines opening entries ++ after) =
      (Config.read? before).bind fun first =>
        (Config.read? after).map fun last => withSection value first last := by
  have sectionBegins : Config.BeginAtMargin (sectionLines opening entries ++ after) := by
    intro line isFirst
    rw [sectionLines, List.cons_append, List.find?_cons_of_pos (by decide)] at isFirst
    cases isFirst
    decide
  rw [List.append_assoc, Config.read?_append sectionBegins, Config.read?_append begins, isSection,
    Option.bind_some]
  cases Config.read? after <;> rfl

theorem lookup_withSection
    (value : ConfigValue)
    (first last : Config) :
    (withSection value first last).lookup criteriaKey =
      some ((last.lookup criteriaKey).getD value) := by
  rw [withSection, Json.lookup_overlaid_eq_or, Json.lookup_overlaid_eq_or, List.lookup_cons_self]
  cases last.lookup criteriaKey <;> rfl

theorem lookup_withSection_of_ne
    {name : Text}
    (isOther : name ≠ criteriaKey)
    (value : ConfigValue)
    (first last : Config) :
    (withSection value first last).lookup name = (Json.overlaid first last).lookup name := by
  have notHere : List.lookup name [(criteriaKey, value)] = none := by
    rw [Lookup.lookup_cons, if_neg isOther]
    rfl
  rw [withSection, Json.lookup_overlaid_eq_or, Json.lookup_overlaid_eq_or,
    Json.lookup_overlaid_eq_or, notHere, Option.or_none]

/-! ## What a catalog depends on -/

/-- Two configurations describe the same criteria and have the same other values. -/
structure TellSame (config other : Config) : Prop where
  described : describedIn config = describedIn other
  others : ∀ name, name ≠ criteriaKey → config.lookup name = other.lookup name

namespace TellSame

theorem minimumFor
    (same : TellSame config other)
    (id : Text) :
    CriteriaSource.minimumFor config id = CriteriaSource.minimumFor other id := by
  rw [CriteriaSource.minimumFor, CriteriaSource.minimumFor, minimumsIn, minimumsIn,
    same.others minimumKey (by decide)]

theorem criteriaIn
    (same : TellSame config other) :
    CriteriaSource.criteriaIn config = CriteriaSource.criteriaIn other := by
  rw [CriteriaSource.criteriaIn, CriteriaSource.criteriaIn, same.described]
  simp only [same.minimumFor]

end TellSame

theorem projectName?_congr
    (same : ∀ name, name ≠ criteriaKey → config.lookup name = other.lookup name) :
    config.projectName? = other.projectName? := by
  have sameNames :
      (["project-name", "name"] : List Text).filterMap (List.lookup · config) =
        (["project-name", "name"] : List Text).filterMap (List.lookup · other) := by
    refine List.filterMap_congr fun name member => same name ?_
    revert name
    decide
  rw [Config.projectName?, Config.projectName?, sameNames]

/-- Which form a section has makes no difference, whatever stands before it and behind it. -/
theorem tellSame_withSection
    (plain : ∀ entry ∈ entries, IsPlain entry)
    (different : (entries.map Prod.fst).Nodup)
    (first last : Config) :
    TellSame (withSection (.map entries) first last)
      (withSection (.items (entries.map written)) first last) where
  described := by
    rw [describedIn, describedIn, lookup_withSection, lookup_withSection]
    -- A later section of the same key takes the place of either form.
    cases last.lookup criteriaKey with
    | some later => rfl
    | none =>
        change entries = distinctBy Prod.fst ((entries.map written).filterMap Title.described?)
        rw [filterMap_described?_written plain, distinctBy_eq_self different]
  others name isOther := by
    rw [lookup_withSection_of_ne isOther, lookup_withSection_of_ne isOther]

/-- A section of nested keys adds its criteria to a configuration that has none. -/
theorem criteriaIn_withSection
    (plain : ∀ entry ∈ entries, IsPlain entry)
    (noCriteria : (Json.overlaid first last).lookup criteriaKey = none) :
    criteriaIn (withSection (.map entries) first last) =
      entries.map fun entry => {
        id := entry.1
        description := entry.2
        minimum := minimumFor (Json.overlaid first last) entry.1
        provenance := .config
      } := by
  have noneBehind : last.lookup criteriaKey = none := by
    rw [Json.lookup_overlaid_eq_or] at noCriteria
    exact (Option.or_eq_none_iff.mp noCriteria).1
  have described : describedIn (withSection (.map entries) first last) = entries := by
    rw [describedIn, lookup_withSection, noneBehind]
    rfl
  have isId : ∀ entry ∈ entries, Title.isId entry.1 = true :=
    fun entry member => (plain entry member).isId
  have minimums :
      minimumsIn (withSection (.map entries) first last) =
        minimumsIn (Json.overlaid first last) := by
    rw [minimumsIn, minimumsIn, lookup_withSection_of_ne (by decide)]
  rw [criteriaIn, described, List.filter_eq_self.mpr isId]
  simp only [minimumFor, minimums]

/-! ## Files in both forms -/

/-- A file holds a text with given lines. -/
def HasLines (tree : Tree) (path : Path) (lines : List Text) : Prop :=
  ∃ text, tree.text? path = some text ∧ text.lines = lines

theorem configIn?_of_hasLines
    {tree : Tree}
    {path : Path}
    {lines : List Text}
    (hasLines : HasLines tree path lines) :
    configIn? tree path = Config.read? lines := by
  obtain ⟨text, isText, rfl⟩ := hasLines
  rw [configIn?, isText, Option.bind_some, Config.toOption_parse]

theorem isFile_of_hasLines
    {tree : Tree}
    {path : Path}
    {lines : List Text}
    (hasLines : HasLines tree path lines) :
    tree.isFile path = .ok true := by
  obtain ⟨text, isText, _⟩ := hasLines
  exact Tree.isFile_of_text? isText

/--
Whether criteria are written as nested keys or as list items, and whatever lines stand around
them, the catalog in a configuration is the same. Where the lines around them are a
configuration without criteria of its own, the catalog has the criteria in their order, each
with its description and the minimum that this configuration gives, and its project name.
-/
theorem catalogInConfig_of_forms
    (notEmpty : entries ≠ [])
    (plain : ∀ entry ∈ entries, IsPlain entry)
    (different : (entries.map Prod.fst).Nodup)
    {before after : List Text}
    (begins : Config.BeginAtMargin after)
    {tree twin : Tree}
    {path : Path}
    (nested : HasLines tree path (before ++ sectionLines keyOpening entries ++ after))
    (listed : HasLines twin path (before ++ sectionLines itemOpening entries ++ after))
    (kind : Text) :
    (catalogInConfig kind tree path).value = (catalogInConfig kind twin path).value ∧
      ∀ surrounding config,
        surrounding.lines = before ++ after →
        (Config.parse surrounding).value = .ok config →
        criteriaKey ∉ config.map Prod.fst →
        (catalogInConfig kind tree path).value = .ok (some {
          criteria := entries.map fun entry => {
            id := entry.1
            description := entry.2
            minimum := minimumFor config entry.1
            provenance := .config
          }
          projectName := config.projectName?
          source := kind ++ ':' :: path.name
        }) := by
  have isNested : configIn? tree path =
      (Config.read? before).bind fun first =>
        (Config.read? after).map fun last => withSection (.map entries) first last := by
    rw [configIn?_of_hasLines nested,
      read?_around_section (read?_nested_section plain different) begins]
  have isListed : configIn? twin path =
      (Config.read? before).bind fun first =>
        (Config.read? after).map fun last =>
          withSection (.items (entries.map written)) first last := by
    rw [configIn?_of_hasLines listed,
      read?_around_section (read?_item_section plain notEmpty) begins]
  constructor
  · rw [value_catalogInConfig, value_catalogInConfig, isNested, isListed,
      isFile_of_hasLines nested, isFile_of_hasLines listed]
    cases Config.read? before with
    | none => rfl
    | some first =>
        cases Config.read? after with
        | none => rfl
        | some last =>
            have same := tellSame_withSection plain different first last
            simp only [Option.bind_some, Option.map_some, Option.getD_some, same.criteriaIn,
              projectName?_congr same.others]
  · intro surrounding config isAround isConfig noCriteria
    have isRead : Config.read? (before ++ after) = some config := by
      rw [← isAround, ← Config.toOption_parse]
      exact Outcome.toOption_eq_some_iff.mpr isConfig
    rw [Config.read?_append begins] at isRead
    obtain ⟨first, isFirst, isRest⟩ := Option.bind_eq_some_iff.mp isRead
    obtain ⟨last, isLast, rfl⟩ := Option.map_eq_some_iff.mp isRest
    have sameName := projectName?_congr fun name isOther =>
      lookup_withSection_of_ne isOther (.map entries) first last
    have criteria := criteriaIn_withSection plain (Lookup.lookup_eq_none_iff.mpr noCriteria)
    rw [value_catalogInConfig, isFile_of_hasLines nested, isNested, isFirst, isLast]
    simp only [Option.bind_some, Option.map_some, Option.getD_some, criteria, sameName]
    exact congrArg Except.ok (if_neg (by simpa using notEmpty))

/-- Descriptions that read like other lines, and a minimum behind the section. -/
theorem catalogInConfig_of_forms_of_marks :
    let entries : List (Text × Text) := [("AC-2", "- Login: 'valid' # x"), ("AC-10", "\x22a, b")]
    let before : List Text := ["project-name: Tasks", "tags:", "  - smoke"]
    let after : List Text := ["", "minimum-tests:", "  AC-10: 3"]
    let path : Path := .ofText "/p/testwarden-config.yml"
    let treeWith (opening : Text) : Tree := {
      nodes := [
        (["p"], .directory),
        (["p", "testwarden-config.yml"],
          .file ((Text.ofLines (before ++ sectionLines opening entries ++ after)).map
            fun c => c.toNat.toUInt8))]
      workingDirectory := []
    }
    let catalog : Catalog := {
      criteria := [
        { id := "AC-2", description := "- Login: 'valid' # x", provenance := .config },
        { id := "AC-10", description := "\x22a, b", minimum := 3, provenance := .config }]
      projectName := some "Tasks".toList
      source := "config:testwarden-config.yml"
    }
    (catalogInConfig "config" (treeWith keyOpening) path).value = .ok (some catalog) ∧
      (catalogInConfig "config" (treeWith itemOpening) path).value = .ok (some catalog) := by
  intro entries before after path treeWith catalog
  have plain : ∀ entry ∈ entries, IsPlain entry := by
    have first : IsPlain ("AC-2", "- Login: 'valid' # x") :=
      ⟨by decide, by decide, by decide, by decide, by rintro _ ⟨⟩; decide, by decide⟩
    have second : IsPlain ("AC-10", "\x22a, b") :=
      ⟨by decide, by decide, by decide, by decide, by rintro _ ⟨⟩; decide, by decide⟩
    exact List.forall_mem_cons.mpr ⟨first, List.forall_mem_singleton.mpr second⟩
  have nested : HasLines (treeWith keyOpening) path
      (before ++ sectionLines keyOpening entries ++ after) :=
    ⟨Text.ofLines (before ++ sectionLines keyOpening entries ++ after),
      by decide +kernel, by decide +kernel⟩
  have listed : HasLines (treeWith itemOpening) path
      (before ++ sectionLines itemOpening entries ++ after) :=
    ⟨Text.ofLines (before ++ sectionLines itemOpening entries ++ after),
      by decide +kernel, by decide +kernel⟩
  obtain ⟨same, isCatalog⟩ := catalogInConfig_of_forms (List.cons_ne_nil _ _) plain (by decide)
    (by decide) nested listed "config"
  have isNested := isCatalog (Text.ofLines (before ++ after)) _ (by decide +kernel) rfl (by decide)
  exact ⟨isNested, same.symm.trans isNested⟩

end CriteriaSource

end TestAudit
