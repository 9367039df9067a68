import TestAudit.Proofs.Files.Tree
import TestAudit.Proofs.Json.Parser
import TestAudit.Proofs.Run.Spec
import TestAudit.Proofs.Run.Walk
import TestAudit.Run.Document

namespace TestAudit.Results

/-!
# Results files that are neither read nor refused

Whatever a results file holds, its records are read, or the file is refused with a fault
that says what is wrong with it. There are two exceptions: an integer of too many digits
stops the reading of the text, and an infinite duration of a final attempt that of the
document.
-/

/-! ## Documents -/

/-- A visit that does not come to a value stops with the fault of a wrong shape. -/
def Visit.NamesValue : Visit → Prop
  | .stop fault => fault ≠ .infiniteDuration
  | .spec _ _ _ => True

theorem namesValue_proceed
    {α : Type}
    {checked : Except ReadingFault α}
    {next : α → List Visit}
    (checks : ChecksShape checked)
    (names : ∀ value, ∀ visit ∈ next value, visit.NamesValue) :
    ∀ visit ∈ proceed checked next, visit.NamesValue := by
  cases checked with
  | ok value => exact names value
  | error fault =>
      exact List.forall_mem_singleton.mpr fun infinite => checks (congrArg _ infinite)

theorem namesValue_specVisits
    (suiteFile : Text)
    (location : Location)
    (index : Nat)
    (specs : List Json.Value) :
    ∀ visit ∈ specVisits suiteFile location index specs, visit.NamesValue := by
  induction specs generalizing index with
  | nil => exact List.forall_mem_nil _
  | cons spec others inductionHypothesis =>
      exact List.forall_mem_cons.mpr ⟨trivial, inductionHypothesis (index + 1)⟩

mutual

theorem namesValue_suiteVisits (location : Location) :
    (suite : Json.Value) → ∀ visit ∈ suiteVisits location suite, visit.NamesValue
  | .object members => by
      rw [suiteVisits]
      refine namesValue_proceed checksShape_asText fun file => ?_
      refine namesValue_proceed checksShape_asList fun specs => ?_
      exact List.forall_mem_append.mpr
        ⟨namesValue_specVisits _ _ _ specs, namesValue_nestedVisits location members⟩
  | .null | .boolean _ | .integer _ | .real _ | .string _ | .array _ =>
      List.forall_mem_singleton.mpr nofun

theorem namesValue_nestedVisits (location : Location) :
    (members : List (Text × Json.Value)) →
      ∀ visit ∈ nestedVisits location members, visit.NamesValue
  | [] => List.forall_mem_nil _
  | (name, value) :: members => by
      rw [nestedVisits]
      split
      · exact namesValue_suitesVisits (location.member "suites") value
      · exact namesValue_nestedVisits location members

theorem namesValue_suitesVisits (location : Location) :
    (value : Json.Value) → ∀ visit ∈ suitesVisits location value, visit.NamesValue
  | .null => List.forall_mem_nil _
  | .array suites => namesValue_suiteListVisits location 0 suites
  | .boolean _ | .integer _ | .real _ | .string _ | .object _ =>
      List.forall_mem_singleton.mpr nofun

theorem namesValue_suiteListVisits (location : Location) :
    (index : Nat) → (suites : List Json.Value) →
      ∀ visit ∈ suiteListVisits location index suites, visit.NamesValue
  | _, [] => List.forall_mem_nil _
  | index, suite :: suites =>
      List.forall_mem_append.mpr
        ⟨namesValue_suiteVisits (location.item index) suite,
          namesValue_suiteListVisits location (index + 1) suites⟩

end

theorem namesValue_visits (document : Json.Value) :
    ∀ visit ∈ visits document, visit.NamesValue :=
  namesValue_suitesVisits _ _

theorem Visit.read_eq_infinite_iff
    {visit : Visit}
    (names : visit.NamesValue) :
    visit.read = .error .infiniteDuration ↔
      ∃ suiteFile location spec, visit = .spec suiteFile location spec ∧ EndsInfinite spec := by
  cases visit with
  | stop fault =>
      refine iff_of_false (fun stops => ?_) (by simp)
      cases stops
      exact names rfl
  | spec suiteFile location spec =>
      rw [Visit.read, Outcome.bind_pure_eq_error_iff, specRecord?_eq_infinite_iff]
      constructor
      · exact fun infinite => ⟨suiteFile, location, spec, rfl, infinite⟩
      · rintro ⟨_, _, _, same, infinite⟩
        cases same
        exact infinite

/--
The walk over a document comes to a spec whose final attempt has an infinite duration:
everything before it is read.
-/
def ComesToInfinite (document : Json.Value) : Prop :=
  ∃ before suiteFile location spec after,
    visits document = before ++ .spec suiteFile location spec :: after ∧
      (∀ visit ∈ before, visit.Readable) ∧ EndsInfinite spec

/-- Reading a document fails without naming a value just when it comes to an infinite duration. -/
theorem records_eq_infinite_iff
    {document : Json.Value} :
    records document = .error .infiniteDuration ↔ ComesToInfinite document := by
  rw [records_eq_readAll, readAll_eq_error_iff]
  constructor
  · rintro ⟨before, visit, after, shape, readable, stops⟩
    have names : visit.NamesValue := by
      refine namesValue_visits document visit ?_
      simp [shape]
    obtain ⟨suiteFile, location, spec, rfl, infinite⟩ := (Visit.read_eq_infinite_iff names).mp stops
    exact ⟨before, suiteFile, location, spec, after, shape, readable, infinite⟩
  · rintro ⟨before, suiteFile, location, spec, after, shape, readable, infinite⟩
    have names : Visit.NamesValue (.spec suiteFile location spec) := trivial
    exact ⟨before, _, after, shape, readable,
      (Visit.read_eq_infinite_iff names).mpr ⟨suiteFile, location, spec, rfl, infinite⟩⟩

/-! ## Files -/

/--
A fault that says what is wrong with a results file. An integer of too many digits, an
infinite duration and a path that can lead to no file do not.
-/
def FileFault.IsRefusal : FileFault → Prop
  | .unreadable _ (.access fault) => fault.reason ≠ .nullCharacter
  | .integerTooLong _ => False
  | .reading .infiniteDuration => False
  | _ => True

instance FileFault.IsRefusal.decidable : (fault : FileFault) → Decidable fault.IsRefusal
  | .unreadable _ (.access _) => inferInstanceAs (Decidable (_ ≠ _))
  | .unreadable _ (.encoding _) => isTrue trivial
  | .syntaxFault _ _ _ => isTrue trivial
  | .notObject _ => isTrue trivial
  | .integerTooLong _ => isFalse id
  | .reading (.malformed _ _ _) => isTrue trivial
  | .reading .infiniteDuration => isFalse id

/-- The records in a results file are read, or the file is refused. -/
def ReadsOrRefuses (tree : Tree) (path : Path) : Prop :=
  (∃ records, loadRecords tree path = .ok records) ∨
    ∃ fault, loadRecords tree path = .error fault ∧ fault.IsRefusal

theorem readsOrRefuses_of_error
    {tree : Tree}
    {path : Path}
    {fault : FileFault}
    (fails : loadRecords tree path = .error fault) :
    ReadsOrRefuses tree path ↔ fault.IsRefusal := by
  simp [ReadsOrRefuses, fails]

instance ReadsOrRefuses.decidable (tree : Tree) (path : Path) :
    Decidable (ReadsOrRefuses tree path) :=
  match outcome : loadRecords tree path with
  | .ok records => isTrue (Or.inl ⟨records, outcome⟩)
  | .error fault => decidable_of_iff fault.IsRefusal (readsOrRefuses_of_error outcome).symm

/-- Of a text that cannot be read, only a path that can lead to no file is not told. -/
theorem isRefusal_unreadable_iff
    {tree : Tree}
    {path : Path}
    {fault : Tree.TextFault}
    (unreadable : tree.readText path = .error fault) :
    (FileFault.unreadable path fault).IsRefusal ↔ path.canLead = true := by
  cases canLead : path.canLead with
  | false =>
      cases (Tree.readText_of_not_canLead canLead).symm.trans unreadable
      exact iff_of_false (fun refused => refused rfl) nofun
  | true =>
      refine iff_of_true ?_ rfl
      cases fault with
      | access fault => exact Tree.reason_of_readText canLead unreadable
      | encoding fault => trivial

/-- A document is read, or refused, unless it comes to an infinite duration. -/
theorem readsOrRefuses_of_document
    {tree : Tree}
    {path : Path}
    {document : Json.Value}
    (loaded : load tree path = .ok document) :
    ReadsOrRefuses tree path ↔ ¬ ComesToInfinite document := by
  have reads : loadRecords tree path = (records document).mapError .reading := by
    rw [loadRecords, loaded]
    rfl
  rw [← records_eq_infinite_iff]
  cases outcome : records document with
  | ok found =>
      rw [outcome] at reads
      exact iff_of_true (Or.inl ⟨found, reads⟩) nofun
  | error fault =>
      rw [outcome] at reads
      rw [readsOrRefuses_of_error reads]
      cases fault with
      | malformed location expected value => exact iff_of_true trivial nofun
      | infiniteDuration => exact iff_of_false (fun refused => refused) (fun differs => differs rfl)

theorem load_of_text
    {tree : Tree}
    {path : Path}
    {text : Text}
    (isText : tree.readText path = .ok text) :
    load tree path =
      match Json.parse text with
      | .error (.malformed fault place) => .error (.syntaxFault path fault place)
      | .error (.integerTooLong digits) => .error (.integerTooLong digits)
      | .ok (.object members) => .ok (.object members)
      | .ok _ => .error (.notObject path) := by
  rw [load, isText]
  rfl

/-- A text is read or refused unless it stops the reading, or its document does. -/
theorem readsOrRefuses_of_text
    {tree : Tree}
    {path : Path}
    {text : Text}
    (isText : tree.readText path = .ok text) :
    ReadsOrRefuses tree path ↔
      (∀ digits, Json.parse text ≠ .error (.integerTooLong digits)) ∧
        ∀ members, Json.parse text = .ok (.object members) →
          ¬ ComesToInfinite (.object members) := by
  have loads : loadRecords tree path = load tree path >>= fun document =>
      (records document).mapError .reading := rfl
  have loaded := load_of_text isText
  cases parsed : Json.parse text with
  | error fault =>
      cases fault with
      | malformed fault place =>
          rw [parsed] at loaded
          rw [loaded] at loads
          simp [readsOrRefuses_of_error loads, FileFault.IsRefusal]
      | integerTooLong digits =>
          rw [parsed] at loaded
          rw [loaded] at loads
          simp [readsOrRefuses_of_error loads, FileFault.IsRefusal]
  | ok value =>
      cases value with
      | object members =>
          rw [parsed] at loaded
          simp [readsOrRefuses_of_document loaded]
      | _ =>
          rw [parsed] at loaded
          rw [loaded] at loads
          simp [readsOrRefuses_of_error loads, FileFault.IsRefusal]

/--
A results file is read or refused exactly when its path can lead to a file, and its text
neither stops the reading with an integer of too many digits, which then stands in it,
nor holds a document that comes to an infinite duration.
-/
theorem readsOrRefuses_iff
    (tree : Tree)
    (path : Path) :
    (ReadsOrRefuses tree path ↔
      path.canLead = true ∧
        ∀ text, tree.readText path = .ok text →
          (∀ digits, Json.parse text ≠ .error (.integerTooLong digits)) ∧
            ∀ members, Json.parse text = .ok (.object members) →
              ¬ ComesToInfinite (.object members)) ∧
      ∀ text digits, Json.parse text = .error (.integerTooLong digits) →
        Json.HasLongRun text digits := by
  refine ⟨?_, fun _ _ => Json.hasLongRun_of_parse⟩
  cases isText : tree.readText path with
  | error fault =>
      have loaded : loadRecords tree path = .error (.unreadable path fault) := by
        rw [loadRecords, load, isText]
        rfl
      simp [ReadsOrRefuses, loaded, isRefusal_unreadable_iff isText]
  | ok text =>
      have canLead : path.canLead = true := by
        cases canLead : path.canLead with
        | true => rfl
        | false => cases (Tree.readText_of_not_canLead canLead).symm.trans isText
      simp [readsOrRefuses_of_text isText, canLead]

/-- The tree with one file in the root directory, where the program runs. -/
def oneFile (name text : Text) : Tree where
  nodes := [([name], .file (Text.Utf8.encode text))]
  workingDirectory := []

/-- A duration that is written as an infinite number is not refused as one of the wrong shape. -/
theorem not_readsOrRefuses_of_infinite_duration :
    ¬ ReadsOrRefuses
      (oneFile "results.json"
        ("\x7b\"suites\":[\x7b\"specs\":[\x7b\"tests\":[\x7b\"results\":[" ++
          "\x7b\"duration\":Infinity\x7d]\x7d]\x7d]\x7d]\x7d"))
      (.ofText "results.json") := by
  decide +kernel

end TestAudit.Results
