import TestAudit.Proofs.Criteria.Config
import TestAudit.Proofs.Criteria.ConfigLine
import TestAudit.Proofs.Json.Overlay
import TestAudit.Proofs.Text.WrittenNumber

namespace TestAudit.Config

/-!
# Configurations in two parts

Where the second part of a configuration begins at the margin, the two parts are read as each
is read alone: the entries of the second are laid over those of the first, and its faults and
warnings count the lines of the first. For a key at the margin closes the section that was
open, and each later line of the part looks only at the section of that key.
-/

/-! ## Lines that are counted on -/

/-- A fault, once the lines before its text are counted. -/
def Fault.behind (before : Nat) : Fault → Fault
  | .notKeyValue line shown => .notKeyValue (before + line) shown
  | .beforeAnyKey line shown => .beforeAnyKey (before + line) shown

/-- A warning, once the lines before its text are counted. -/
def Warning.behind (before : Nat) : Warning → Warning
  | .notList line key => .notList (before + line) key
  | .notObject line key => .notObject (before + line) key
  | .tooDeep line key => .tooDeep (before + line) key

/-- Two computations with one value; the warnings of the second count lines before its text. -/
structure ReadBehind (before : Nat) {α : Type} (alone whole : Logged α) : Prop where
  value : whole.value = alone.value
  log :
    ∃ warnings : List Warning,
      alone.log = warnings.map Warning.logLine ∧
        whole.log = (warnings.map (Warning.behind before)).map Warning.logLine

namespace ReadBehind

variable {before number : Nat} {key text : Text} {value : ConfigValue}

theorem silent
    {α : Type}
    (value : α) :
    ReadBehind before (pure value : Logged α) (pure value) :=
  ⟨rfl, [], rfl, rfl⟩

theorem warned
    {α : Type}
    (warning : Warning)
    (value : α) :
    ReadBehind before ⟨[warning.logLine], value⟩ ⟨[(warning.behind before).logLine], value⟩ :=
  ⟨rfl, [warning], rfl, rfl⟩

theorem withItem :
    ReadBehind before (withItem number key text value)
      (withItem (before + number) key text value) := by
  cases value with
  | text text => exact warned (.notList number key) _
  | map entries =>
      cases entries with
      | nil => exact silent _
      | cons entry entries => exact warned (.notList number key) _
  | items items => exact silent _

theorem withNested
    (name : Text) :
    ReadBehind before (withNested number key name text value)
      (withNested (before + number) key name text value) := by
  cases value with
  | text text => exact warned (.notObject number key) _
  | map entries => exact silent _
  | items items => exact warned (.notObject number key) _

theorem withDeep :
    ReadBehind before (withDeep number key value) (withDeep (before + number) key value) :=
  warned (.tooDeep number key) value

end ReadBehind

/-! ## One part behind another -/

/-- What has been read of a part, alone and behind the entries that were read before. -/
structure Follows (base : Config) (alone whole : Progress) : Prop where
  entries : whole.entries = Json.overlaid base alone.entries
  openKey :
    ∀ key,
      alone.openKey = some key →
      whole.openKey = some key ∧ key ∈ alone.entries.map Prod.fst

/-- The outcomes of reading a part alone and behind other lines. -/
inductive FollowsAs (base : Config) (before : Nat) :
    Except Fault Progress → Except Fault Progress → Prop where
  | ok {alone whole : Progress} :
      Follows base alone whole →
      FollowsAs base before (.ok alone) (.ok whole)
  | error {fault : Fault} :
      FollowsAs base before (.error fault) (.error (fault.behind before))

/-- The runs that read a part alone and behind other lines. -/
structure ReadsAlike
    (base : Config)
    (before : Nat)
    (alone whole : Logged (Except Fault Progress)) : Prop where
  value : FollowsAs base before alone.value whole.value
  log :
    ∃ warnings : List Warning,
      alone.log = warnings.map Warning.logLine ∧
        whole.log = (warnings.map (Warning.behind before)).map Warning.logLine

section Parts

variable {base : Config} {before number : Nat} {alone whole : Progress}

theorem Follows.setMember
    (different : (base.map Prod.fst).Nodup)
    (follows : Follows base alone whole)
    (key : Text)
    (value : ConfigValue) :
    Follows base
      { entries := Json.setMember key value alone.entries, openKey := some key }
      { entries := Json.setMember key value whole.entries, openKey := some key } where
  entries := by rw [Json.overlaid_setMember different, follows.entries]
  openKey := by
    rintro _ ⟨⟩
    refine ⟨rfl, ?_⟩
    rw [Json.map_fst_setMember]
    split
    next isKnown => exact isKnown
    next => exact List.mem_append_right _ List.mem_cons_self

/-- In an open section a line changes the entry of that section, which the part has set. -/
theorem Follows.readsInSection
    (different : (base.map Prod.fst).Nodup)
    (follows : Follows base alone whole)
    {key : Text}
    (isOpen : alone.openKey = some key)
    (shown : Text)
    {change later : Text → ConfigValue → Logged ConfigValue}
    (changes : ∀ key value, ReadBehind before (change key value) (later key value)) :
    ReadsAlike base before (inSection number shown change alone)
      (inSection (before + number) shown later whole) := by
  obtain ⟨wholeOpen, isMember⟩ := follows.openKey key isOpen
  have sameValue : whole.entries.lookup key = alone.entries.lookup key := by
    rw [follows.entries, Json.lookup_overlaid isMember]
  obtain ⟨isValue, warnings, aloneLog, wholeLog⟩ :=
    changes key ((alone.entries.lookup key).getD (.map []))
  rw [inSection, inSection, isOpen, wholeOpen]
  refine ⟨?_, warnings, (List.append_nil _).trans aloneLog, ?_⟩
  · rw [Logged.value_bind, Logged.value_bind, Logged.value_pure, Logged.value_pure, sameValue,
      isValue]
    exact .ok (follows.setMember different key _)
  · change (later key ((whole.entries.lookup key).getD (.map []))).log ++ [] = _
    rw [sameValue]
    exact (List.append_nil _).trans wholeLog

/-- A line that needs no open section: it is silent, or stands at the margin. -/
def Line.standsAlone : Line → Bool
  | .silent | .key _ _ | .broken _ => true
  | .item _ _ | .nested _ _ _ | .deep _ => false

/-- One line is read alike in a part alone and behind other lines. -/
theorem Follows.readsLine
    (different : (base.map Prod.fst).Nodup)
    (follows : Follows base alone whole)
    {line : Line}
    (fits : alone.openKey = none → line.standsAlone = true) :
    ReadsAlike base before (step number line alone) (step (before + number) line whole) := by
  have inOpen
      (outside : line.standsAlone = false)
      (shown : Text)
      {change later : Text → ConfigValue → Logged ConfigValue}
      (changes : ∀ key value, ReadBehind before (change key value) (later key value)) :
      ReadsAlike base before (inSection number shown change alone)
        (inSection (before + number) shown later whole) := by
    cases isOpen : alone.openKey with
    | none =>
        rw [fits isOpen] at outside
        cases outside
    | some key => exact follows.readsInSection different isOpen shown changes
  cases line with
  | silent => exact ⟨.ok follows, [], rfl, rfl⟩
  | key name value => exact ⟨.ok (follows.setMember different name _), [], rfl, rfl⟩
  | broken shown => exact ⟨.error, [], rfl, rfl⟩
  | item value shown => exact inOpen rfl shown fun _ _ => .withItem
  | nested name value shown => exact inOpen rfl shown fun _ _ => .withNested name
  | deep shown => exact inOpen rfl shown fun _ _ => .withDeep

/-- Runs that are alike go on alike with what follows a part that was read. -/
theorem ReadsAlike.bind
    {first behind : Logged (Except Fault Progress)}
    (alike : ReadsAlike base before first behind)
    {next later : Progress → Logged (Except Fault Progress)}
    (goesOn :
      ∀ alone whole,
        first.value = .ok alone →
        Follows base alone whole →
        ReadsAlike base before (next alone) (later whole)) :
    ReadsAlike base before
      (do
        match ← first with
        | .ok progress => next progress
        | .error fault => return .error fault)
      (do
        match ← behind with
        | .ok progress => later progress
        | .error fault => return .error fault) := by
  obtain ⟨value, warnings, firstLog, behindLog⟩ := alike
  obtain ⟨log, result⟩ := first
  obtain ⟨laterLog, laterResult⟩ := behind
  cases value with
  | error =>
      refine ⟨.error, warnings, ?_, ?_⟩
      · exact (List.append_nil _).trans firstLog
      · exact (List.append_nil _).trans behindLog
  | @ok alone whole follows =>
      obtain ⟨nextValue, more, nextLog, moreLog⟩ := goesOn alone whole rfl follows
      refine ⟨nextValue, warnings ++ more, ?_, ?_⟩
      · rw [List.map_append, ← firstLog, ← nextLog]
        rfl
      · rw [List.map_append, List.map_append, ← behindLog, ← moreLog]
        rfl

end Parts

/-! ## The margin -/

/-- The first of some lines that says anything is not indented and begins with no hyphen. -/
def BeginAtMargin (lines : List Text) : Prop :=
  ∀ line ∈ lines.find? (!saysNothing ·), isInner line = false

instance (lines : List Text) : Decidable (BeginAtMargin lines) := by
  unfold BeginAtMargin
  infer_instance

section Margin

variable {line : Text} {lines : List Text}

/-- What stands at the margin, or says nothing, needs no open section. -/
theorem standsAlone_classify
    (atMargin : saysNothing line = false → isInner line = false) :
    (classify line).standsAlone = true := by
  generalize isRead : classify line = read
  cases isRead ▸ readAs_classify line with
  | silent | key | broken => rfl
  | inSection speaks inner =>
      rw [atMargin speaks] at inner
      cases inner

theorem BeginAtMargin.head
    (begins : BeginAtMargin (line :: lines))
    (speaks : saysNothing line = false) :
    isInner line = false := by
  refine begins line ?_
  rw [List.find?_cons_of_pos (by simp [speaks])]
  rfl

theorem BeginAtMargin.tail
    (begins : BeginAtMargin (line :: lines))
    (nothing : saysNothing line = true) :
    BeginAtMargin lines := by
  rw [BeginAtMargin, List.find?_cons_of_neg (by simp [nothing])] at begins
  exact begins

/-- Where no section is open after a line, the line says nothing, and none was open before. -/
theorem silent_of_openKey_eq_none
    {number : Nat}
    {line : Line}
    {progress next : Progress}
    (steps : (step number line progress).value = .ok next)
    (noneOpen : next.openKey = none) :
    line = .silent ∧ progress.openKey = none := by
  have impossible
      {shown : Text}
      {change : Text → ConfigValue → Logged ConfigValue}
      (changes : (inSection number shown change progress).value = .ok next) :
      False := by
    unfold inSection at changes
    split at changes
    · cases changes
    next isOpen =>
      cases changes
      rw [isOpen] at noneOpen
      cases noneOpen
  cases line with
  | silent =>
      cases steps
      exact ⟨rfl, noneOpen⟩
  | key name value =>
      cases steps
      cases noneOpen
  | broken shown => cases steps
  | item value shown => exact (impossible steps).elim
  | nested name value shown => exact (impossible steps).elim
  | deep shown => exact (impossible steps).elim

/-- Lines that begin at the margin are read alike alone and behind other lines. -/
theorem Follows.readsLines
    {base : Config}
    {before number : Nat}
    {alone whole : Progress}
    (different : (base.map Prod.fst).Nodup)
    (follows : Follows base alone whole)
    (begins : alone.openKey = none → BeginAtMargin lines) :
    ReadsAlike base before (readLines number lines alone)
      (readLines (before + number) lines whole) := by
  induction lines generalizing number alone whole with
  | nil => exact ⟨.ok follows, [], rfl, rfl⟩
  | cons line others inductionHypothesis =>
      have fits (noneOpen : alone.openKey = none) : (classify line).standsAlone = true :=
        standsAlone_classify (begins noneOpen).head
      refine (follows.readsLine different fits).bind fun next later steps goesOn => ?_
      refine inductionHypothesis goesOn fun noneOpen => ?_
      obtain ⟨isSilent, noneBefore⟩ := silent_of_openKey_eq_none steps noneOpen
      exact (begins noneBefore).tail (classify_eq_silent_iff.mp isSilent)

end Margin

/-! ## Lines behind lines -/

theorem readLines_append
    (number : Nat)
    (lines others : List Text)
    (progress : Progress) :
    readLines number (lines ++ others) progress =
      (do
        match ← readLines number lines progress with
        | .ok progress => readLines (number + lines.length) others progress
        | .error fault => return .error fault) := by
  induction lines generalizing number progress with
  | nil => rfl
  | cons line lines inductionHypothesis =>
      have behind (next : Progress) := inductionHypothesis (number + 1) next
      rw [List.cons_append, readLines, readLines, List.length_cons, ← Nat.add_assoc,
        Nat.add_right_comm]
      obtain ⟨log, result⟩ := step number (classify line) progress
      cases result with
      | error fault =>
          change (⟨log ++ [], .error fault⟩ : Logged (Except Fault Progress)) =
            ⟨log ++ [] ++ [], .error fault⟩
          rw [List.append_nil (log ++ [])]
      | ok next =>
          change (⟨log ++ (readLines (number + 1) (lines ++ others) next).log,
            (readLines (number + 1) (lines ++ others) next).value⟩ : Logged _) = _
          rw [behind]
          exact congrArg (Logged.mk · _) (List.append_assoc _ _ _).symm

/-! ## Texts behind texts -/

/--
What two texts are read as, one behind the other: the first fault decides, and the entries of
the second are laid over those of the first.
-/
def joined (before : Nat) : Except Fault Config → Except Fault Config → Except Fault Config
  | .error fault, _ => .error fault
  | .ok _, .error fault => .error (fault.behind before)
  | .ok first, .ok second => .ok (Json.overlaid first second)

/-- The warnings that reading a text gives. -/
def Warns (text : Text) (warnings : List Warning) : Prop :=
  (parse text).log = warnings.map Warning.logLine

/-- A number and a key between fixed texts are told by the whole text. -/
theorem numbered_inj
    {opening middle closing key name : Text}
    {line other : Nat}
    (noDigit : ∀ rest, Text.NoDigit (middle ++ rest))
    (same :
      opening ++ Text.ofNat line ++ middle ++ key ++ closing =
        opening ++ Text.ofNat other ++ middle ++ name ++ closing) :
    line = other ∧ key = name := by
  have inner := List.append_cancel_right same
  simp only [List.append_assoc] at inner
  obtain ⟨sameLine, sameRest⟩ :=
    Text.ofNat_append_inj (noDigit key) (noDigit name) (List.append_cancel_left inner)
  exact ⟨sameLine, List.append_cancel_left sameRest⟩

/-- The beginning of a message, as far as it is needed to tell the kind of the warning. -/
def Warning.kindMark : Warning → Text
  | .notList _ _ => "Ignoring lis"
  | .notObject _ _ => "Ignoring nes"
  | .tooDeep _ _ => "Ignoring lin"

theorem Warning.take_message
    (warning : Warning) :
    warning.message.take 12 = warning.kindMark := by
  cases warning <;> rfl

/-- A log line tells the warning it is for. -/
theorem Warning.logLine_injective :
    Function.Injective Warning.logLine := by
  intro first second same
  have messages : first.message = second.message := congrArg LogLine.message same
  have kinds : first.kindMark = second.kindMark := by
    rw [← first.take_message, ← second.take_message, messages]
  cases first with
  | notList line key =>
      cases second with
      | notList other name =>
          obtain ⟨rfl, rfl⟩ := numbered_inj (by rintro _ _ _ ⟨⟩; rfl) messages
          rfl
      | notObject | tooDeep => exact absurd kinds (by dsimp only [kindMark]; decide)
  | notObject line key =>
      cases second with
      | notObject other name =>
          obtain ⟨rfl, rfl⟩ := numbered_inj (by rintro _ _ _ ⟨⟩; rfl) messages
          rfl
      | notList | tooDeep => exact absurd kinds (by dsimp only [kindMark]; decide)
  | tooDeep line key =>
      cases second with
      | tooDeep other name =>
          obtain ⟨rfl, rfl⟩ := numbered_inj (by rintro _ _ _ ⟨⟩; rfl) messages
          rfl
      | notList | notObject => exact absurd kinds (by dsimp only [kindMark]; decide)

theorem Warns.iff_eq
    {text : Text}
    {warnings : List Warning}
    (warns : Warns text warnings)
    (others : List Warning) :
    Warns text others ↔ others = warnings := by
  rw [Warns, warns]
  exact ⟨fun same => (List.map_injective_iff.mpr Warning.logLine_injective same).symm,
    fun same => congrArg _ same.symm⟩

/-- Whatever a line is, the log tells of it by warnings. -/
theorem exists_warnings_step
    (number : Nat)
    (line : Line)
    (progress : Progress) :
    ∃ warnings : List Warning, (step number line progress).log = warnings.map Warning.logLine := by
  have inOpen
      (shown : Text)
      {change later : Text → ConfigValue → Logged ConfigValue}
      (changes : ∀ key value, ReadBehind 0 (change key value) (later key value)) :
      ∃ warnings : List Warning,
        (inSection number shown change progress).log = warnings.map Warning.logLine := by
    unfold inSection
    split
    · exact ⟨[], rfl⟩
    next key _ =>
      obtain ⟨_, warnings, isLog, _⟩ := changes key ((progress.entries.lookup key).getD (.map []))
      exact ⟨warnings, (List.append_nil _).trans isLog⟩
  cases line with
  | silent | key | broken => exact ⟨[], rfl⟩
  | item value shown => exact inOpen shown fun _ _ => .withItem
  | nested name value shown => exact inOpen shown fun _ _ => .withNested name
  | deep shown => exact inOpen shown fun _ _ => .withDeep

theorem exists_warnings_readLines
    (number : Nat)
    (lines : List Text)
    (progress : Progress) :
    ∃ warnings : List Warning,
      (readLines number lines progress).log = warnings.map Warning.logLine := by
  induction lines generalizing number progress with
  | nil => exact ⟨[], rfl⟩
  | cons line others inductionHypothesis =>
      obtain ⟨warnings, isLog⟩ := exists_warnings_step number (classify line) progress
      rw [readLines]
      revert isLog
      obtain ⟨log, result⟩ := step number (classify line) progress
      rintro (isLog : log = _)
      cases result with
      | error fault => exact ⟨warnings, (List.append_nil _).trans isLog⟩
      | ok next =>
          obtain ⟨more, moreLog⟩ := inductionHypothesis (number + 1) next
          refine ⟨warnings ++ more, ?_⟩
          rw [List.map_append, ← isLog, ← moreLog]
          rfl

theorem log_parse
    (text : Text) :
    (parse text).log = (readLines 1 text.lines {}).log :=
  List.append_nil _

/-- Behind lines that were read, lines are read as they are alone. -/
theorem readsAlike_behind
    {lines others : List Text}
    {last : Progress}
    (reads : (readLines 1 lines {}).value = .ok last)
    (begins : BeginAtMargin others) :
    ReadsAlike last.entries lines.length (readLines 1 others {})
      (readLines (lines.length + 1) others last) := by
  have follows : Follows last.entries {} last := ⟨(Json.overlaid_nil _).symm, nofun⟩
  exact follows.readsLines (keysDiffer_readLines reads) fun _ => begins

/--
Where a text ends in a line feed and the next one begins at the margin, the two are read one
behind the other as each is read alone. The first fault decides, and faults and warnings of
the second count the lines of the first. Where there is none, the entries of the second are
laid over those of the first: a key of both keeps its place and has the value of the second,
and new keys follow in their order.
-/
theorem parse_append
    (first second : Text)
    (ends : Text.EndsLine first)
    (begins : BeginAtMargin second.lines) :
    (parse (first ++ second)).value =
        joined first.lines.length (parse first).value (parse second).value ∧
      ∀ config,
        (parse first).value = .ok config →
        ∃ early late,
          (∀ warnings, Warns first warnings ↔ warnings = early) ∧
            (∀ warnings, Warns second warnings ↔ warnings = late) ∧
            ∀ warnings,
              Warns (first ++ second) warnings ↔
                warnings = early ++ late.map (Warning.behind first.lines.length) := by
  have parts := readLines_append 1 first.lines second.lines {}
  rw [← Text.lines_append ends, Nat.add_comm 1] at parts
  constructor
  · rw [value_parse, value_parse first, value_parse second, parts, Logged.value_bind]
    cases reads : (readLines 1 first.lines {}).value with
    | error fault => rfl
    | ok last =>
        obtain ⟨value, _⟩ := readsAlike_behind reads begins
        change (readLines (first.lines.length + 1) second.lines last).value.map (·.entries) = _
        generalize (readLines 1 second.lines {}).value = alone at value ⊢
        generalize (readLines (first.lines.length + 1) second.lines last).value = whole at value ⊢
        cases value with
        | ok follows => exact congrArg Except.ok follows.entries
        | error => rfl
  · intro config isConfig
    obtain ⟨last, reads, rfl⟩ := exists_readLines_of_parse isConfig
    obtain ⟨early, firstLog⟩ := exists_warnings_readLines 1 first.lines {}
    obtain ⟨_, late, secondLog, behindLog⟩ := readsAlike_behind reads begins
    have wholeLog :
        Warns (first ++ second) (early ++ late.map (Warning.behind first.lines.length)) := by
      rw [Warns, log_parse, parts, List.map_append, ← firstLog, ← behindLog]
      change _ ++ Logged.log (match (readLines 1 first.lines {}).value with
        | .ok progress => readLines (first.lines.length + 1) second.lines progress
        | .error fault => pure (.error fault)) = _
      rw [reads]
    exact ⟨early, late, Warns.iff_eq ((log_parse first).trans firstLog),
      Warns.iff_eq ((log_parse second).trans secondLog), wholeLog.iff_eq⟩

/-- A section that is open at the end of the first text, and a key of both texts. -/
theorem parse_append_of_common_key :
    let first : Text := "tags:\n  - smoke\nname: A\n  x: 1\n"
    let second : Text := "\n# second part\ntags: all\n  - late\nextra:\n"
    Text.EndsLine first ∧
      BeginAtMargin second.lines ∧
      (parse (first ++ second)).value =
        .ok [("tags", .text "all"), ("name", .text "A"), ("extra", .map [])] ∧
      Warns (first ++ second) [.notObject 4 "name", .notList 8 "tags"] := by
  intro first second
  have ends : Text.EndsLine first := by decide
  have begins : BeginAtMargin second.lines := by decide
  have firstRead : parse first =
      { log := [(Warning.notObject 4 "name").logLine],
        value := .ok [("tags", .items ["smoke"]), ("name", .text "A")] } :=
    rfl
  have secondRead : parse second =
      { log := [(Warning.notList 4 "tags").logLine],
        value := .ok [("tags", .text "all"), ("extra", .map [])] } :=
    rfl
  obtain ⟨isValue, isLog⟩ := parse_append first second ends begins
  rw [firstRead, secondRead] at isValue
  obtain ⟨early, late, isEarly, isLate, isWhole⟩ := isLog _ (congrArg Logged.value firstRead)
  have isFirst : [Warning.notObject 4 "name"] = early :=
    (isEarly _).mp (congrArg Logged.log firstRead)
  have isSecond : [Warning.notList 4 "tags"] = late :=
    (isLate _).mp (congrArg Logged.log secondRead)
  refine ⟨ends, begins, isValue, (isWhole _).mpr ?_⟩
  rw [← isFirst, ← isSecond]
  rfl

end TestAudit.Config
