import TestAudit.Proofs.Criteria.ConfigParts
import TestAudit.Proofs.Distinct

namespace TestAudit.Config

/-!
# Lines that a configuration cannot have

A line at the margin has to begin with a key and a colon, and a line of a section has to
stand behind such a line. The first line that breaks this decides: the text is refused with
its number. A text without one is a configuration, whose keys are those at the margin, and in
which every value holds something.
-/

variable {before lines names : List Text} {line : Text} {progress next : Progress} {fault : Fault}

/-! ## Refused lines -/

/-- Why a line cannot stand behind others. Lines count from one; what says nothing can stand. -/
inductive Refused (before : List Text) (line : Text) : Fault → Prop where
  /-- It stands at the margin and begins with no key. -/
  | notKeyValue :
      saysNothing line = false →
      isInner line = false →
      (∀ name, ¬ IsKeyLine name line) →
      Refused before line (.notKeyValue (before.length + 1) line.trim)
  /-- It belongs to a section, but no line before it begins with a key. -/
  | beforeAnyKey :
      saysNothing line = false →
      isInner line = true →
      (∀ earlier ∈ before, ∀ name, ¬ IsKeyLine name earlier) →
      Refused before line (.beforeAnyKey (before.length + 1) line.trim)

/-- No line is refused behind those before it. -/
def Accepted (lines : List Text) : Prop :=
  ∀ before line after fault, lines = before ++ line :: after → ¬ Refused before line fault

/-- A line is the first one that is refused; the fault has its number. -/
def RefusedFirst (lines : List Text) (fault : Fault) : Prop :=
  ∃ before line after,
    lines = before ++ line :: after ∧
      Accepted before ∧ Refused before line fault ∧ fault.line = before.length + 1

theorem Refused.line_eq
    (refused : Refused before line fault) :
    fault.line = before.length + 1 := by
  cases refused <;> rfl

/-- A line is refused for one reason. -/
theorem Refused.unique
    {other : Fault}
    (refused : Refused before line fault)
    (refusedAgain : Refused before line other) :
    fault = other := by
  cases refused with
  | notKeyValue _ atMargin _ =>
      cases refusedAgain with
      | notKeyValue => rfl
      | beforeAnyKey _ inner _ => cases atMargin.symm.trans inner
  | beforeAnyKey _ inner _ =>
      cases refusedAgain with
      | notKeyValue _ atMargin _ => cases atMargin.symm.trans inner
      | beforeAnyKey => rfl

theorem Accepted.nil : Accepted [] := by
  intro before line after fault shape
  cases before <;> cases shape

theorem Accepted.concat
    (accepted : Accepted before)
    (stands : ∀ fault, ¬ Refused before line fault) :
    Accepted (before ++ [line]) := by
  intro earlier other after fault shape
  rcases List.eq_nil_or_concat after with rfl | ⟨others, last, rfl⟩
  · obtain ⟨rfl, same⟩ := List.append_inj' shape rfl
    cases same
    exact stands fault
  · rw [List.concat_eq_append, ← List.cons_append, ← List.append_assoc] at shape
    exact accepted earlier other others fault (List.append_inj' shape rfl).1

/-- There is one first refused line, and one fault for it. -/
theorem RefusedFirst.unique
    {other : Fault}
    (refused : RefusedFirst lines fault)
    (refusedAgain : RefusedFirst lines other) :
    fault = other := by
  obtain ⟨before, line, after, rfl, accepted, isRefused, _⟩ := refused
  obtain ⟨earlier, another, behind, shape, acceptedEarlier, isRefusedAgain, _⟩ := refusedAgain
  rcases List.append_eq_append_iff.mp shape with ⟨between, rfl, rest⟩ | ⟨between, rfl, rest⟩
  · cases between with
    | nil =>
        cases rest
        rw [List.append_nil] at isRefusedAgain
        exact isRefused.unique isRefusedAgain
    | cons first between =>
        cases rest
        exact (acceptedEarlier before line between fault rfl isRefused).elim
  · cases between with
    | nil =>
        cases rest
        rw [List.append_nil] at isRefused
        exact isRefused.unique isRefusedAgain
    | cons first between =>
        cases rest
        exact (accepted earlier another between other rfl isRefusedAgain).elim

/-! ## Keys in their order -/

/-- The keys that lines begin with at the margin, line by line. -/
inductive KeysOf : List Text → List Text → Prop where
  | nil : KeysOf [] []
  | key {name line : Text} {lines names : List Text} :
      IsKeyLine name line →
      KeysOf lines names →
      KeysOf (line :: lines) (name :: names)
  | other {line : Text} {lines names : List Text} :
      (∀ name, ¬ IsKeyLine name line) →
      KeysOf lines names →
      KeysOf (line :: lines) names

namespace KeysOf

theorem append
    {others otherNames : List Text}
    (keys : KeysOf lines names)
    (otherKeys : KeysOf others otherNames) :
    KeysOf (lines ++ others) (names ++ otherNames) := by
  induction keys with
  | nil => exact otherKeys
  | key isKeyLine _ inductionHypothesis => exact .key isKeyLine inductionHypothesis
  | other noKey _ inductionHypothesis => exact .other noKey inductionHypothesis

theorem exists_line
    {name : Text}
    (keys : KeysOf lines names)
    (member : name ∈ names) :
    ∃ line ∈ lines, IsKeyLine name line := by
  induction keys with
  | nil => cases member
  | @key first line lines names isKeyLine _ inductionHypothesis =>
      rcases List.mem_cons.mp member with rfl | inOthers
      · exact ⟨line, List.mem_cons_self, isKeyLine⟩
      · obtain ⟨other, isOther, isKey⟩ := inductionHypothesis inOthers
        exact ⟨other, List.mem_cons_of_mem _ isOther, isKey⟩
  | other _ _ inductionHypothesis =>
      obtain ⟨other, isOther, isKey⟩ := inductionHypothesis member
      exact ⟨other, List.mem_cons_of_mem _ isOther, isKey⟩

end KeysOf

/-- The keys of a configuration are those of some lines, each where it came first. -/
def HasKeysOf (lines : List Text) (config : Config) : Prop :=
  ∃ names, KeysOf lines names ∧ config.map Prod.fst = distinctBy id names

theorem HasKeysOf.setMember
    {config : Config}
    {name : Text}
    (hasKeys : HasKeysOf before config)
    (isKeyLine : IsKeyLine name line)
    (value : ConfigValue) :
    HasKeysOf (before ++ [line]) (Json.setMember name value config) := by
  obtain ⟨names, keys, same⟩ := hasKeys
  refine ⟨names ++ [name], keys.append (.key isKeyLine .nil), ?_⟩
  rw [Json.map_fst_setMember, same, distinctBy_eq_foldl_keepNew, distinctBy_eq_foldl_keepNew,
    List.foldl_append, ← distinctBy_eq_foldl_keepNew]
  simp [keepNew]

theorem HasKeysOf.of_other
    {config other : Config}
    (hasKeys : HasKeysOf before config)
    (noKey : ∀ name, ¬ IsKeyLine name line)
    (same : other.map Prod.fst = config.map Prod.fst) :
    HasKeysOf (before ++ [line]) other := by
  obtain ⟨names, keys, isKeys⟩ := hasKeys
  refine ⟨names, ?_, same.trans isKeys⟩
  have appended := keys.append (.other noKey .nil)
  rwa [List.append_nil] at appended

/-! ## Reading line by line -/

/-- What has been read of lines that are accepted; a section is open once one was a key. -/
structure HasRead (before : List Text) (progress : Progress) : Prop where
  accepted : Accepted before
  keys : HasKeysOf before progress.entries
  noneOpen : progress.openKey = none → ∀ line ∈ before, ∀ name, ¬ IsKeyLine name line
  openIsKey : ∀ key, progress.openKey = some key → key ∈ progress.entries.map Prod.fst

namespace HasRead

theorem nil : HasRead [] {} where
  accepted := .nil
  keys := ⟨[], .nil, rfl⟩
  noneOpen _ := List.forall_mem_nil _
  openIsKey := nofun

theorem exists_keyLine
    (hasRead : HasRead before progress)
    {key : Text}
    (isOpen : progress.openKey = some key) :
    ∃ line ∈ before, ∃ name, IsKeyLine name line := by
  obtain ⟨names, keys, same⟩ := hasRead.keys
  have member := hasRead.openIsKey key isOpen
  rw [same] at member
  obtain ⟨line, isLine, isKeyLine⟩ := keys.exists_line (mem_of_mem_distinctBy member)
  exact ⟨line, isLine, key, isKeyLine⟩

/-- A line that is no key and can stand leaves the keys and the open section as they are. -/
theorem pass
    (hasRead : HasRead before progress)
    (noKey : ∀ name, ¬ IsKeyLine name line)
    (stands : ∀ fault, ¬ Refused before line fault)
    (sameKeys : next.entries.map Prod.fst = progress.entries.map Prod.fst)
    (sameOpen : next.openKey = progress.openKey) :
    HasRead (before ++ [line]) next where
  accepted := hasRead.accepted.concat stands
  keys := hasRead.keys.of_other noKey sameKeys
  noneOpen noneOpen := by
    refine List.forall_mem_append.mpr ⟨hasRead.noneOpen (sameOpen ▸ noneOpen), ?_⟩
    exact List.forall_mem_singleton.mpr noKey
  openIsKey key isOpen := sameKeys ▸ hasRead.openIsKey key (sameOpen ▸ isOpen)

/-- A line at the margin opens the section of its key. -/
theorem openSection
    (hasRead : HasRead before progress)
    {name : Text}
    (isKeyLine : IsKeyLine name line)
    (value : ConfigValue) :
    HasRead (before ++ [line])
      { entries := Json.setMember name value progress.entries, openKey := some name } where
  accepted := by
    refine hasRead.accepted.concat fun fault refused => ?_
    cases refused with
    | notKeyValue _ _ noKey => exact noKey name isKeyLine
    | beforeAnyKey _ inner _ => cases isKeyLine.isInner.symm.trans inner
  keys := hasRead.keys.setMember isKeyLine value
  noneOpen := nofun
  openIsKey := by
    rintro _ ⟨⟩
    rw [Json.map_fst_setMember]
    split
    next isKnown => exact isKnown
    next => exact List.mem_append_right _ List.mem_cons_self

/-- What comes of a line behind the lines that were read. -/
def Continues (before : List Text) (line : Text) : Except Fault Progress → Prop
  | .ok next => HasRead (before ++ [line]) next
  | .error fault => Refused before line fault

/-- A line of a section changes the entry that is open, and is refused when none is. -/
theorem continues_inSection
    (hasRead : HasRead before progress)
    (speaks : saysNothing line = false)
    (inner : isInner line = true)
    (change : Text → ConfigValue → Logged ConfigValue) :
    Continues before line (inSection (before.length + 1) line.trim change progress).value := by
  unfold inSection
  split
  next noneOpen => exact .beforeAnyKey speaks inner (hasRead.noneOpen noneOpen)
  next key isOpen =>
    have noKey : ∀ name, ¬ IsKeyLine name line := by
      intro name isKeyLine
      cases isKeyLine.isInner.symm.trans inner
    have stands : ∀ fault, ¬ Refused before line fault := by
      intro fault refused
      cases refused with
      | notKeyValue _ atMargin _ => cases atMargin.symm.trans inner
      | beforeAnyKey _ _ noneBefore =>
          obtain ⟨earlier, member, name, isKeyLine⟩ := hasRead.exists_keyLine isOpen
          exact noneBefore earlier member name isKeyLine
    refine hasRead.pass noKey stands ?_ rfl
    change (Json.setMember key _ progress.entries).map Prod.fst = _
    rw [Json.map_fst_setMember, if_pos (hasRead.openIsKey key isOpen)]

/-- One more line is read, or refused. -/
theorem continues_step
    (hasRead : HasRead before progress)
    (line : Text) :
    Continues before line (step (before.length + 1) (classify line) progress).value := by
  generalize isRead : classify line = read
  cases isRead ▸ readAs_classify line with
  | silent nothing =>
      have noKey : ∀ name, ¬ IsKeyLine name line := by
        intro name isKeyLine
        cases isKeyLine.saysNothing.symm.trans nothing
      have stands : ∀ fault, ¬ Refused before line fault := by
        intro fault refused
        cases refused with
        | notKeyValue speaks | beforeAnyKey speaks => cases speaks.symm.trans nothing
      exact hasRead.pass noKey stands rfl rfl
  | key isKeyLine => exact hasRead.openSection isKeyLine _
  | broken speaks atMargin noKey => exact .notKeyValue speaks atMargin noKey
  | inSection speaks inner shown =>
      cases read with
      | silent | key | broken => cases shown
      | item | nested | deep =>
          cases shown
          exact hasRead.continues_inSection speaks inner _

/-- Some lines behind those that were read are read too, or one of them is the first refused. -/
theorem readLines
    (hasRead : HasRead before progress)
    (lines : List Text) :
    match (readLines (before.length + 1) lines progress).value with
    | .ok last => HasRead (before ++ lines) last
    | .error fault => RefusedFirst (before ++ lines) fault := by
  induction lines generalizing before progress with
  | nil => simpa [Config.readLines] using hasRead
  | cons line others inductionHypothesis =>
      have continues := hasRead.continues_step line
      rw [Config.readLines, Logged.value_bind]
      cases stepped : (step (before.length + 1) (classify line) progress).value with
      | error fault =>
          rw [stepped] at continues
          exact ⟨before, line, others, rfl, hasRead.accepted, continues, continues.line_eq⟩
      | ok next =>
          rw [stepped] at continues
          have rest := inductionHypothesis continues
          rwa [List.length_append, List.length_singleton, List.append_assoc] at rest

end HasRead

/--
A text is refused just when a line cannot stand behind those before it: it is at the margin
and no key, or belongs to a section before any key. The fault is that of the first such line
and has its number. Else every value of the configuration holds something, and its keys are
those at the margin, in the order in which they came first.
-/
theorem parse_refused_or_filled
    (text : Text) :
    ((∃ fault, (parse text).value = .error fault) ↔
        ∃ before line after fault,
          text.lines = before ++ line :: after ∧ Refused before line fault) ∧
      (∀ fault, (parse text).value = .error fault ↔ RefusedFirst text.lines fault) ∧
      ∀ config,
        (parse text).value = .ok config →
        (∀ entry ∈ config, IsFilled entry.2) ∧ HasKeysOf text.lines config := by
  have run := HasRead.nil.readLines text.lines
  rw [List.nil_append, List.length_nil, Nat.zero_add] at run
  have value := value_parse text
  cases reads : (readLines 1 text.lines {}).value with
  | error fault =>
      rw [reads] at run value
      have isFault : (parse text).value = .error fault := value
      have ⟨before, line, after, shape, _, refused, _⟩ := run
      refine ⟨iff_of_true ⟨fault, isFault⟩ ⟨before, line, after, fault, shape, refused⟩, ?_, ?_⟩
      · intro other
        rw [isFault]
        refine ⟨?_, fun refusedFirst => congrArg _ (run.unique refusedFirst)⟩
        rintro ⟨⟩
        exact run
      · intro config isConfig
        cases isFault.symm.trans isConfig
  | ok last =>
      rw [reads] at run value
      have isConfig : (parse text).value = .ok last.entries := value
      have noFault : ∀ fault, (parse text).value ≠ .error fault := by
        intro fault isFault
        cases isConfig.symm.trans isFault
      have noneRefused :
          ¬ ∃ before line after fault,
            text.lines = before ++ line :: after ∧ Refused before line fault := by
        rintro ⟨before, line, after, fault, shape, refused⟩
        exact run.accepted before line after fault shape refused
      refine ⟨iff_of_false (fun ⟨fault, isFault⟩ => noFault fault isFault) noneRefused, ?_, ?_⟩
      · intro fault
        refine iff_of_false (noFault fault) ?_
        rintro ⟨before, line, after, shape, _, refused, _⟩
        exact noneRefused ⟨before, line, after, fault, shape, refused⟩
      · intro config isOther
        refine ⟨isKept_isFilled.parse isOther, ?_⟩
        cases isConfig.symm.trans isOther
        exact run.keys

/-- A comment, a key that comes twice, a section that turns into a list, and empty values. -/
theorem parse_refused_or_filled_of_repeated_key :
    let text : Text := "# x\nname: A\ntags:\n- \x27\x27\n  late\nac:\n  AC-1:\n  AC-2: y\nname: B\n"
    let config : Config :=
      [("name", .text "B"), ("tags", .items [[]]), ("ac", .map [("AC-2", "y")])]
    (parse text).value = .ok config ∧
      (∀ entry ∈ config, IsFilled entry.2) ∧
      HasKeysOf text.lines config := by
  intro text config
  have isConfig : (parse text).value = .ok config := rfl
  exact ⟨isConfig, (parse_refused_or_filled text).2.2 config isConfig⟩

end TestAudit.Config
