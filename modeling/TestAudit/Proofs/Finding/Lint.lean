import TestAudit.Finding.Lint
import TestAudit.Proofs.Finding.Batch
import TestAudit.Proofs.Finding.Discovery
import TestAudit.Proofs.Json.Printer

namespace TestAudit

/-!
# What the exit code of a lint run tells

A lint run fails just when what was named is not there or a file that it looks at holds a
critical violation. How the outcome is presented does not matter to the exit code, and the
JSON object that presents it agrees with it. There is an outcome unless it cannot be told of
a place that the run checks what is there.
-/

/-- The value of the member with a name, if there is one. -/
def Json.named (members : List (Text × Json.Value)) (name : Text) : Option Json.Value :=
  members.lookup name

/-! ## Summaries -/

namespace ScanSummary

variable (summary : ScanSummary)

/-- A violation is critical or a warning, and not both. -/
theorem length_critical_add_length_warnings :
    summary.critical.length + summary.warnings.length = summary.violations.length := by
  have others :
      summary.warnings = summary.violations.filter fun violation =>
        !decide (violation.severity = .critical) :=
    List.filter_congr fun violation _ => by cases violation.severity <;> rfl
  rw [critical, others]
  exact (List.length_eq_length_filter_add _).symm

theorem exitCode_eq_one_iff :
    summary.exitCode = 1 ↔ summary.critical ≠ [] := by
  unfold exitCode
  split
  next isCritical => exact iff_of_true rfl isCritical
  next isClean => exact iff_of_false nofun isClean

theorem verdict_eq_blocked_iff :
    summary.verdict = .blocked ↔ summary.exitCode = 1 := by
  rw [exitCode_eq_one_iff, verdict]
  split
  next isCritical => exact iff_of_true rfl isCritical
  next isClean => exact iff_of_false (by split <;> nofun) isClean

/-- The name of the verdict tells the exit code. -/
theorem name_verdict_eq_blocked_iff :
    Json.Value.string summary.verdict.name = .string "blocked" ↔ summary.exitCode = 1 := by
  rw [← verdict_eq_blocked_iff, Json.Value.string.injEq]
  cases summary.verdict with
  | clean => exact iff_of_false (by decide) nofun
  | warnings => exact iff_of_false (by decide) nofun
  | blocked => exact iff_of_true rfl rfl

/-- No summary holds a fraction. -/
theorem isExact_toJson :
    summary.toJson.isExact = true := by
  have violations : Json.Value.areExact (summary.violations.map Violation.toJson) = true :=
    Json.Value.areExact_map (fun _ => rfl) _
  have unreadable : Json.Value.areExact (summary.unreadable.map unreadableJson) = true :=
    Json.Value.areExact_map (fun _ => rfl) _
  unfold toJson countMembers unreadableMember
  split <;> simp [Json.Value.isExact, Json.Value.haveExact, violations, unreadable]

/-! ## The members of its JSON object -/

/-- The members of the JSON object. -/
def members : List (Text × Json.Value) :=
  summary.countMembers ++ summary.unreadableMember

theorem nodup_names :
    (summary.members.map Prod.fst).Nodup := by
  unfold members countMembers unreadableMember
  split
  · have different :
        (["files", "violations", "critical", "warnings", "status"] : List Text).Nodup := by
      decide
    exact different
  · have different :
        (["files", "violations", "critical", "warnings", "status", "unreadable"] :
          List Text).Nodup := by
      decide
    exact different

theorem named_files :
    Json.named summary.members "files" = some (.integer summary.files) :=
  rfl

theorem named_violations :
    Json.named summary.members "violations" =
      some (.array (summary.violations.map Violation.toJson)) :=
  rfl

theorem named_critical :
    Json.named summary.members "critical" = some (.integer summary.critical.length) :=
  rfl

theorem named_warnings :
    Json.named summary.members "warnings" = some (.integer summary.warnings.length) :=
  rfl

theorem named_status :
    Json.named summary.members "status" = some (.string summary.verdict.name) :=
  rfl

end ScanSummary

namespace Lint

variable (project : Project) (tree : Tree) (request : Request)

/-! ## What a run looks at -/

/-- What a run looks at, if what was named is there and there are test directories. -/
def discovered : Except Discovery.Fault (Option (List Path)) :=
  (Discovery.discover project tree request.file request.directory).value

/-- What a run finds in files. -/
def found (files : List Path) : ScanSummary :=
  ((Scan.scanFiles project files).onFiles tree).value

/-- How a run ends. -/
def ending : Except Tree.Fault Outcome :=
  ((run project request).onFiles tree).value

theorem ending_eq :
    ending project tree request =
      match discovered project tree request with
      | .error (.access fault) => .error fault
      | .error fault => .ok (faultOutcome request fault)
      | .ok none => .ok (noDirectoryOutcome request)
      | .ok (some []) => .ok (noFileOutcome request)
      | .ok (some files) => .ok (summaryOutcome request files (found project tree files)) := by
  unfold ending run discovered Session.onFiles
  simp only [Session.value_bind, Session.value_tree, Session.value_lift]
  rcases (Discovery.discover project tree request.file request.directory).value
    with (_ | _ | _) | _ | _ | _ <;> rfl

variable {project tree request}

section Named

variable {isThere : Except Tree.Fault Bool} {found? : Option (List Path)}
variable {missing : Discovery.Fault} {fault : Tree.Fault}

/-- What is discovered where something was named: it has to be there. -/
def ofNamed (isThere : Except Tree.Fault Bool) (found? : Option (List Path))
    (missing : Discovery.Fault) : Except Discovery.Fault (Option (List Path)) :=
  match isThere with
  | .ok true => .ok found?
  | .ok false => .error missing
  | .error fault => .error (.access fault)

theorem ofNamed_eq_access_iff
    (notAccess : missing ≠ .access fault) :
    ofNamed isThere found? missing = .error (.access fault) ↔ isThere = .error fault := by
  rcases isThere with other | _ | _
  · simp [ofNamed]
  · exact iff_of_false (fun isAccess => notAccess (Except.error.inj isAccess)) nofun
  · exact iff_of_false nofun nofun

theorem eq_true_of_ofNamed
    {seen? : Option (List Path)}
    (isFound : ofNamed isThere found? missing = .ok seen?) :
    isThere = .ok true := by
  rcases isThere with _ | _ | _
  · cases isFound
  · cases isFound
  · rfl

/-- A named file is all that is looked at. -/
theorem discovered_of_file
    (namesFile : request.file ≠ []) :
    discovered project tree request =
      ofNamed (tree.isFile (project.resolve request.file))
        (some [project.resolve request.file]) (.fileMissing (project.resolve request.file)) := by
  unfold discovered Discovery.discover
  rw [if_pos namesFile]
  dsimp only
  rcases tree.isFile (project.resolve request.file) with _ | _ | _ <;> rfl

theorem discovered_of_directory
    (noFile : request.file = [])
    (namesDirectory : request.directory ≠ []) :
    discovered project tree request =
      ofNamed (tree.isDirectory (project.resolve request.directory))
        (some (Discovery.testFilesIn tree [project.resolve request.directory]).value)
        (.directoryMissing (project.resolve request.directory)) := by
  unfold discovered Discovery.discover
  rw [if_neg (not_not_intro noFile), if_pos namesDirectory]
  dsimp only
  rcases tree.isDirectory (project.resolve request.directory) with _ | _ | _ <;> rfl

end Named

theorem discovered_of_nothing
    (noFile : request.file = [])
    (noDirectory : request.directory = []) :
    discovered project tree request =
      match Discovery.testDirectories project tree with
      | .error fault => .error (.access fault)
      | .ok directories =>
          .ok (if directories = [] then none
            else some (directories.flatMap (Discovery.testFilesBelow tree))) := by
  rw [discovered, noFile, noDirectory]
  refine (Discovery.value_discover_of_no_name project tree).trans ?_
  cases Discovery.testDirectories project tree <;> rfl

/-! ## Places that are checked -/

/-- What was named is not there; a file that is named keeps the directory from being asked for. -/
inductive NamesMissing (project : Project) (tree : Tree) (request : Request) : Prop where
  | file
      (namesFile : request.file ≠ [])
      (notThere : tree.isFile (project.resolve request.file) ≠ .ok true) :
      NamesMissing project tree request
  | directory
      (noFile : request.file = [])
      (namesDirectory : request.directory ≠ [])
      (notThere : tree.isDirectory (project.resolve request.directory) ≠ .ok true) :
      NamesMissing project tree request

/--
It cannot be told of a place that a run checks what is there: of what was named, or, where
nothing was, of a place for tests, and of none before it.
-/
inductive CannotTell (project : Project) (tree : Tree) (request : Request) (fault : Tree.Fault) :
    Prop where
  | file
      (namesFile : request.file ≠ [])
      (isFault : tree.isFile (project.resolve request.file) = .error fault) :
      CannotTell project tree request fault
  | directory
      (noFile : request.file = [])
      (namesDirectory : request.directory ≠ [])
      (isFault : tree.isDirectory (project.resolve request.directory) = .error fault) :
      CannotTell project tree request fault
  | place {before after : List Text} {name : Text}
      (noFile : request.file = [])
      (noDirectory : request.directory = [])
      (places : Discovery.conventionalDirectories = before ++ name :: after)
      (areTold : ∀ earlier ∈ before, ∃ isThere,
        tree.isDirectory (project.resolve earlier) = .ok isThere)
      (isFault : tree.isDirectory (project.resolve name) = .error fault) :
      CannotTell project tree request fault

theorem discovered_eq_access_iff
    {fault : Tree.Fault} :
    discovered project tree request = .error (.access fault) ↔
      CannotTell project tree request fault := by
  constructor
  · intro isFault
    by_cases noFile : request.file = []
    · by_cases noDirectory : request.directory = []
      · rw [discovered_of_nothing noFile noDirectory] at isFault
        split at isFault
        next isFirst =>
          cases isFault
          obtain ⟨_, _, _, places, areTold, isFault⟩ :=
            Discovery.testDirectories_eq_error_iff.mp isFirst
          exact .place noFile noDirectory places areTold isFault
        next => cases isFault
      · rw [discovered_of_directory noFile noDirectory] at isFault
        exact .directory noFile noDirectory ((ofNamed_eq_access_iff (by nofun)).mp isFault)
    · rw [discovered_of_file noFile] at isFault
      exact .file noFile ((ofNamed_eq_access_iff (by nofun)).mp isFault)
  · rintro (⟨namesFile, isFault⟩ | ⟨noFile, namesDirectory, isFault⟩ |
      ⟨noFile, noDirectory, places, areTold, isFault⟩)
    · rw [discovered_of_file namesFile, isFault, ofNamed]
    · rw [discovered_of_directory noFile namesDirectory, isFault, ofNamed]
    · have isFirst :=
        Discovery.testDirectories_eq_error_iff.mpr ⟨_, _, _, places, areTold, isFault⟩
      rw [discovered_of_nothing noFile noDirectory, isFirst]

theorem not_namesMissing_of_discovered
    {files? : Option (List Path)}
    (isFound : discovered project tree request = .ok files?) :
    ¬ NamesMissing project tree request := by
  rintro (⟨namesFile, notThere⟩ | ⟨noFile, namesDirectory, notThere⟩)
  · rw [discovered_of_file namesFile] at isFound
    exact notThere (eq_true_of_ofNamed isFound)
  · rw [discovered_of_directory noFile namesDirectory] at isFound
    exact notThere (eq_true_of_ofNamed isFound)

/-- Where every place that is checked can be told, only what was named can be missing. -/
theorem namesMissing_of_discovered
    {fault : Discovery.Fault}
    (isFault : discovered project tree request = .error fault)
    (canTell : ∀ access, ¬ CannotTell project tree request access) :
    NamesMissing project tree request := by
  by_cases noFile : request.file = []
  · by_cases noDirectory : request.directory = []
    · rw [discovered_of_nothing noFile noDirectory] at isFault
      split at isFault
      next access isFirst =>
        have isAccess : discovered project tree request = .error (.access access) := by
          rw [discovered_of_nothing noFile noDirectory, isFirst]
        exact (canTell access (discovered_eq_access_iff.mp isAccess)).elim
      next => cases isFault
    · refine .directory noFile noDirectory fun isThere => ?_
      rw [discovered_of_directory noFile noDirectory, isThere] at isFault
      cases isFault
  · refine .file noFile fun isThere => ?_
    rw [discovered_of_file noFile, isThere] at isFault
    cases isFault

/-- A run has no outcome just where it cannot tell what is at a place. -/
theorem ending_eq_error_iff
    {fault : Tree.Fault} :
    ending project tree request = .error fault ↔ CannotTell project tree request fault := by
  rw [← discovered_eq_access_iff, ending_eq]
  split
  next isFault =>
    rw [isFault]
    simp
  next other notAccess isFault =>
    rw [isFault]
    exact iff_of_false nofun fun isAccess => notAccess fault (Except.error.inj isAccess)
  all_goals
    next isFound =>
      rw [isFound]
      exact iff_of_false nofun nofun

/-! ## The exit code -/

/-- Why a run fails. -/
inductive Fails (project : Project) (tree : Tree) (request : Request) : Prop where
  | missing :
      NamesMissing project tree request →
      Fails project tree request
  | critical {files : List Path} {path : Path} {text : Text} {violation : Violation} :
      discovered project tree request = .ok (some files) →
      path ∈ files →
      tree.readLenient path = .ok text →
      violation ∈
        (Scan.scan (Scan.labelOf project tree path) text (Language.ofFileName? path.name)).value →
      violation.severity = .critical →
      Fails project tree request

section OfOutcome

variable {outcome : Outcome}

theorem not_cannotTell_of_ending
    (ends : ending project tree request = .ok outcome)
    (fault : Tree.Fault) :
    ¬ CannotTell project tree request fault := by
  intro cannotTell
  rw [ending_eq_error_iff.mpr cannotTell] at ends
  cases ends

theorem exitCode_of_ending
    (ends : ending project tree request = .ok outcome) :
    outcome.exitCode =
      match discovered project tree request with
      | .error _ => 1
      | .ok none => 0
      | .ok (some files) => (found project tree files).exitCode := by
  rw [ending_eq] at ends
  split at ends
  next => cases ends
  next isFault =>
    cases ends
    rw [isFault]
    exact (apply_ite Outcome.exitCode _ _ _).trans (ite_self _)
  all_goals
    next isFound =>
      cases ends
      rw [isFound]
      rfl

theorem exitCode_found_eq_one_iff
    {files : List Path} :
    (found project tree files).exitCode = 1 ↔
      ∃ path ∈ files, ∃ text,
        tree.readLenient path = .ok text ∧
          ∃ violation ∈
              (Scan.scan (Scan.labelOf project tree path) text
                (Language.ofFileName? path.name)).value,
            violation.severity = .critical := by
  rw [ScanSummary.exitCode_eq_one_iff, found, Scan.critical_scanFiles_ne_nil_iff]
  constructor
  · rintro ⟨path, member, violation, inFile, isCritical⟩
    obtain ⟨text, isText, inText⟩ := Scan.mem_foundIn_iff.mp inFile
    exact ⟨path, member, text, isText, violation, inText, isCritical⟩
  · rintro ⟨path, member, text, isText, violation, inText, isCritical⟩
    exact ⟨path, member, violation, Scan.mem_foundIn_iff.mpr ⟨text, isText, inText⟩, isCritical⟩

theorem exitCode_eq_one_iff_of_ending
    (ends : ending project tree request = .ok outcome) :
    outcome.exitCode = 1 ↔ Fails project tree request := by
  rw [exitCode_of_ending ends]
  cases isFound : discovered project tree request with
  | error fault =>
      have isMissing := namesMissing_of_discovered isFound (not_cannotTell_of_ending ends)
      exact iff_of_true rfl (.missing isMissing)
  | ok files? =>
      have nothingMissing := not_namesMissing_of_discovered isFound
      cases files? with
      | none =>
          refine iff_of_false nofun ?_
          rintro (missing | ⟨isOther, _⟩)
          · exact nothingMissing missing
          · rw [isFound] at isOther
            cases isOther
      | some files =>
          -- Discovery has one result, so the files of a failure are those that were scanned.
          refine exitCode_found_eq_one_iff.trans ⟨?_, ?_⟩
          · rintro ⟨path, member, text, isText, violation, inText, isCritical⟩
            exact .critical isFound member isText inText isCritical
          · rintro (missing | ⟨isOther, member, isText, inText, isCritical⟩)
            · exact absurd missing nothingMissing
            · rw [isFound] at isOther
              cases isOther
              exact ⟨_, member, _, isText, _, inText, isCritical⟩

theorem exitCode_of_ending_eq_zero_or_one
    (ends : ending project tree request = .ok outcome) :
    outcome.exitCode = 0 ∨ outcome.exitCode = 1 := by
  rw [exitCode_of_ending ends]
  split
  · exact Or.inr rfl
  · exact Or.inl rfl
  · exact (ite_eq_or_eq _ _ _).symm

/-- How the outcome is presented makes no difference to whether there is one, nor to its code. -/
theorem exists_ending_of_presentation
    (ends : ending project tree request = .ok outcome)
    (json suggestions : Bool) :
    ∃ other, ending project tree { request with json, suggestions } = .ok other ∧
      other.exitCode = outcome.exitCode := by
  cases endsOther : ending project tree { request with json, suggestions } with
  | error fault =>
      have cannotTell := discovered_eq_access_iff.mpr (ending_eq_error_iff.mp endsOther)
      exact (not_cannotTell_of_ending ends fault (discovered_eq_access_iff.mp cannotTell)).elim
  | ok other =>
      exact ⟨other, rfl, (exitCode_of_ending endsOther).trans (exitCode_of_ending ends).symm⟩

end OfOutcome

/-! ## The JSON object -/

/-- The JSON value that presents a run. -/
def presented (project : Project) (tree : Tree) (request : Request) : Json.Value :=
  match discovered project tree request with
  | .error fault => problemJson fault.message
  | .ok none => problemJson "No test directories found"
  | .ok (some files) => (found project tree files).toJson

theorem isExact_presented :
    (presented project tree request).isExact = true := by
  unfold presented
  split
  · rfl
  · rfl
  · exact ScanSummary.isExact_toJson _

section Asked

variable {outcome : Outcome}

/-- Asked for JSON, a run prints its value and nothing else. -/
theorem exists_stdout_of_ending
    (json : request.json = true)
    (ends : ending project tree request = .ok outcome) :
    ∃ layout : Json.Layout,
      outcome.stdout = (presented project tree request).render layout 0 ++ ['\n'] := by
  rw [ending_eq] at ends
  rw [presented]
  generalize discovered project tree request = seen at ends ⊢
  rcases seen with (_ | _ | _) | _ | _ | _ <;> cases ends
  · exact ⟨.oneLine, by simp [faultOutcome, json, printed, Json.Value.oneLine]⟩
  · exact ⟨.oneLine, by simp [faultOutcome, json, printed, Json.Value.oneLine]⟩
  · exact ⟨.oneLine, by simp [noDirectoryOutcome, json, printed, Json.Value.oneLine]⟩
  · have nothing : found project tree [] = {} := rfl
    exact ⟨.oneLine, by simp [noFileOutcome, json, printed, Json.Value.oneLine, nothing]⟩
  · exact ⟨.indented, by simp [summaryOutcome, json, printed, Json.Value.indented]⟩

theorem isDocument_stdout_of_ending
    (json : request.json = true)
    (ends : ending project tree request = .ok outcome) :
    Json.IsDocument outcome.stdout (presented project tree request) := by
  obtain ⟨layout, isPrinted⟩ := exists_stdout_of_ending json ends
  rw [isPrinted]
  exact Json.isDocument_render layout isExact_presented

/-- The members of a JSON object tell the verdict on a run, and count what it found. -/
structure Tells
    (project : Project)
    (tree : Tree)
    (request : Request)
    (outcome : Outcome)
    (members : List (Text × Json.Value)) : Prop where
  different : (members.map Prod.fst).Nodup
  hasStatus :
    Json.named members "status" ≠ none ↔
      ∃ files, discovered project tree request = .ok (some files)
  status :
    ∀ status, Json.named members "status" = some status →
      (status = .string "blocked" ↔ outcome.exitCode = 1)
  counts :
    ∀ status, Json.named members "status" = some status →
      ∃ files critical warnings violations,
        discovered project tree request = .ok (some files) ∧
          Json.named members "files" = some (.integer files.length) ∧
          Json.named members "critical" = some (.integer critical) ∧
          Json.named members "warnings" = some (.integer warnings) ∧
          Json.named members "violations" = some (.array violations) ∧
          critical + warnings = violations.length

/-- A run without files to look at tells no verdict. -/
theorem tells_of_noStatus
    {members : List (Text × Json.Value)}
    (different : (members.map Prod.fst).Nodup)
    (noStatus : Json.named members "status" = none)
    (noFiles : ∀ files, discovered project tree request ≠ .ok (some files)) :
    Tells project tree request outcome members where
  different := different
  hasStatus := iff_of_false (not_not_intro noStatus) (not_exists.mpr noFiles)
  status status isStatus := by
    rw [noStatus] at isStatus
    cases isStatus
  counts status isStatus := by
    rw [noStatus] at isStatus
    cases isStatus

theorem tells_of_discovered
    {files : List Path}
    (ends : ending project tree request = .ok outcome)
    (isFound : discovered project tree request = .ok (some files)) :
    Tells project tree request outcome (found project tree files).members where
  different := ScanSummary.nodup_names _
  hasStatus := by
    rw [ScanSummary.named_status]
    exact iff_of_true (Option.some_ne_none _) ⟨files, isFound⟩
  status := by
    rw [ScanSummary.named_status]
    intro status isStatus
    obtain rfl := Option.some.inj isStatus
    rw [exitCode_of_ending ends, isFound]
    exact ScanSummary.name_verdict_eq_blocked_iff _
  counts _ _ := by
    refine ⟨files, _, _, _, isFound, ?_, ScanSummary.named_critical _,
      ScanSummary.named_warnings _, ScanSummary.named_violations _, ?_⟩
    · have sameFiles : (found project tree files).files = files.length := by
        rw [found, Scan.value_scanFiles]
      rw [ScanSummary.named_files, sameFiles]
    · rw [List.length_map, ← ScanSummary.length_critical_add_length_warnings]
      exact (Int.natCast_add _ _).symm

theorem exists_tells
    (ends : ending project tree request = .ok outcome) :
    ∃ members,
      presented project tree request = .object members ∧
        Tells project tree request outcome members := by
  unfold presented
  have different : (["error", "violations", "files"] : List Text).Nodup := by
    decide
  cases isFound : discovered project tree request with
  | error fault => exact ⟨_, rfl, tells_of_noStatus different rfl (by simp [isFound])⟩
  | ok files? =>
      cases files? with
      | none => exact ⟨_, rfl, tells_of_noStatus different rfl (by simp [isFound])⟩
      | some files => exact ⟨_, rfl, tells_of_discovered ends isFound⟩

end Asked

/-! ## The contract -/

/--
What a run is to tell by its outcome: the exit code tells whether it fails, however the outcome
is presented, and a run that is asked for JSON prints one JSON object, which tells the same.
-/
structure KeepsContract
    (project : Project)
    (tree : Tree)
    (request : Request)
    (outcome : Outcome) : Prop where
  fails : outcome.exitCode = 1 ↔ Fails project tree request
  passes : ¬ Fails project tree request → outcome.exitCode = 0
  sameCode :
    ∀ json suggestions, ∃ other,
      ending project tree { request with json, suggestions } = .ok other ∧
        other.exitCode = outcome.exitCode
  isObject :
    request.json = true →
      ∃ members,
        (∀ value, Json.IsDocument outcome.stdout value ↔ value = .object members) ∧
          Tells project tree request outcome members

/-- A run has an outcome, which tells what it is to tell. -/
def EndsByContract (project : Project) (tree : Tree) (request : Request) : Prop :=
  ∃ outcome, ending project tree request = .ok outcome ∧
    KeepsContract project tree request outcome

theorem keepsContract_of_ending
    {outcome : Outcome}
    (ends : ending project tree request = .ok outcome) :
    KeepsContract project tree request outcome where
  fails := exitCode_eq_one_iff_of_ending ends
  passes := by
    intro passes
    rcases exitCode_of_ending_eq_zero_or_one ends with isZero | isOne
    · exact isZero
    · exact absurd ((exitCode_eq_one_iff_of_ending ends).mp isOne) passes
  sameCode := exists_ending_of_presentation ends
  isObject := by
    intro json
    obtain ⟨members, isObject, tells⟩ := exists_tells ends
    have isDocument := isDocument_stdout_of_ending json ends
    rw [isObject] at isDocument
    refine ⟨members, fun value => ⟨?_, ?_⟩, tells⟩
    · exact fun isOther => isOther.unique isDocument
    · rintro rfl
      exact isDocument

/--
A run ends by its contract just when it can tell of every place that it checks what is there;
otherwise it ends with the fault of the first place of which it cannot.
-/
theorem endsByContract_iff
    (project : Project)
    (tree : Tree)
    (request : Request) :
    (EndsByContract project tree request ↔
        ¬ ∃ fault, CannotTell project tree request fault) ∧
      ∀ fault, ending project tree request = .error fault ↔
        CannotTell project tree request fault := by
  refine ⟨⟨?_, ?_⟩, fun fault => ending_eq_error_iff⟩
  · rintro ⟨_, ends, _⟩ ⟨fault, cannotTell⟩
    exact not_cannotTell_of_ending ends fault cannotTell
  · intro canTell
    cases ends : ending project tree request with
    | error fault => exact (canTell ⟨fault, ending_eq_error_iff.mp ends⟩).elim
    | ok outcome => exact ⟨outcome, ends, keepsContract_of_ending ends⟩

/-- A file is closed, and the one behind it holds a critical violation. -/
theorem endsByContract_iff_of_critical :
    let project : Project := { root := .ofText "/p" }
    let bytes (text : Text) : List UInt8 := text.map fun c => UInt8.ofNat c.toNat
    let tree : Tree := {
      nodes := [
        (["p"], .directory),
        (["p", "tests"], .directory),
        (["p", "tests", "a.spec.ts"], .closedFile),
        (["p", "tests", "b.spec.ts"], .file (bytes "page.evaluate(() => el.remove())"))]
      workingDirectory := ["p"]
    }
    let request : Request := { directory := "tests", json := true }
    Fails project tree request ∧ EndsByContract project tree request := by
  intro project bytes tree request
  have isThere : tree.isDirectory (project.resolve request.directory) = .ok true := by decide
  have located : tree.locate (project.resolve request.directory) = .ok ["p", "tests"] := by
    decide
  have own : Tree.sortedNames Discovery.isOwnTestFile (tree.children ["p", "tests"]) =
      (["a.spec.ts", "b.spec.ts"] : List Text) :=
    List.mergeSort_of_pairwise (by decide +kernel)
  have searched : Tree.sortedNames Discovery.isSearchedDirectory (tree.children ["p", "tests"]) =
      [] :=
    List.mergeSort_of_pairwise List.Pairwise.nil
  have isFound : discovered project tree request =
      .ok (some [.ofText "/p/tests/a.spec.ts", .ofText "/p/tests/b.spec.ts"]) := by
    rw [discovered_of_directory rfl (by decide), isThere]
    dsimp only [Discovery.testFilesIn]
    rw [List.flatMap_cons, List.flatMap_nil, Discovery.testFilesBelow_eq_map located,
      Discovery.walk_of_directory (by decide), own, searched]
    rfl
  have isText : tree.readLenient (.ofText "/p/tests/b.spec.ts") =
      .ok "page.evaluate(() => el.remove())" := by
    decide +kernel
  have isCritical : ∃ violation ∈
      (Scan.scan (Scan.labelOf project tree (.ofText "/p/tests/b.spec.ts"))
        "page.evaluate(() => el.remove())"
        (Language.ofFileName? (Path.ofText "/p/tests/b.spec.ts").name)).value,
      violation.severity = .critical := by
    decide +kernel
  obtain ⟨violation, isViolation, severity⟩ := isCritical
  constructor
  · exact .critical isFound (List.mem_cons_of_mem _ List.mem_cons_self) isText isViolation severity
  · refine (endsByContract_iff project tree request).1.mpr ?_
    rintro ⟨fault, cannotTell⟩
    rw [discovered_eq_access_iff.mpr cannotTell] at isFound
    cases isFound

/-- It cannot be told of a name that is too long whether a file has it, so there is no outcome. -/
theorem not_endsByContract_of_long_name :
    let project : Project := { root := .ofText "/p" }
    let tree : Tree := { nodes := [(["p"], .directory)], workingDirectory := ["p"] }
    let request : Request := { file := List.replicate 256 'x', json := true }
    Fails project tree request ∧ ¬ EndsByContract project tree request := by
  intro project tree request
  have isFault : tree.isFile (project.resolve request.file) =
      .error { reason := .nameTooLong, path := project.resolve request.file } := by
    decide +kernel
  have namesFile : request.file ≠ [] := by decide
  constructor
  · refine .missing (.file namesFile ?_)
    rw [isFault]
    nofun
  · rintro ⟨outcome, ends, _⟩
    exact not_cannotTell_of_ending ends _ (.file namesFile isFault)

end Lint

end TestAudit
