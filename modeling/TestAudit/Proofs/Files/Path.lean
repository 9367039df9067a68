import Mathlib.Data.List.Basic
import TestAudit.Files.Project
import TestAudit.Proofs.Text.Line

namespace TestAudit

/-!
# Paths and their labels

A path is read back from the text that it is written as. A label is such a text: that of
what leads from the root of the project to the path, or that of the path itself. Only the
first has no anchor, so paths with one label denote one place.
-/

namespace Path

variable {path : Path} {names : List Text}

/-! ## Written paths -/

/-- A name in a path: it is not empty, is no single dot, and has no slash. -/
def IsName (name : Text) : Prop :=
  name ≠ [] ∧ name ≠ here ∧ '/' ∉ name

/-- A path of names, as reading a text gives it. -/
def Proper (path : Path) : Prop :=
  ∀ name ∈ path.names, IsName name

/-- A path that is written in full, from the root directory on. -/
def IsFull (path : Path) : Prop :=
  path.isAbsolute = true ∧ path.Proper

theorem proper_ofText
    (text : Text) :
    (ofText text).Proper := by
  intro name member
  obtain ⟨isPiece, isKept⟩ := List.mem_filter.mp member
  simp only [ne_eq, decide_not, Bool.and_eq_true, Bool.not_eq_true',
    decide_eq_false_iff_not] at isKept
  exact ⟨isKept.1, isKept.2, Text.not_mem_of_mem_splitOn isPiece⟩

/-- A text of joined names does not begin with a slash. -/
theorem joinWith_ne_slash
    (areNames : ∀ name ∈ names, IsName name)
    (rest : Text) :
    Text.joinWith ['/'] names ≠ '/' :: rest := by
  cases names with
  | nil => exact (List.cons_ne_nil _ _).symm
  | cons name others =>
      obtain ⟨notEmpty, _, noSlash⟩ := areNames name List.mem_cons_self
      cases name with
      | nil => exact (notEmpty rfl).elim
      | cons c name =>
          rintro same
          have isSlash : c = '/' := by
            cases others with
            | nil => simpa [Text.joinWith] using congrArg List.head? same
            | cons second others =>
                rw [Text.joinWith, List.intercalate_cons_cons] at same
                simpa using congrArg List.head? same
          exact noSlash (isSlash ▸ List.mem_cons_self)

/-- The names that are joined by slashes are those between the slashes. -/
theorem filter_splitOn_joinWith
    (areNames : ∀ name ∈ names, IsName name) :
    ((Text.joinWith ['/'] names).splitOn '/').filter (fun name => name ≠ [] && name ≠ here) =
      names := by
  by_cases isEmpty : names = []
  · subst isEmpty
    rfl
  · rw [Text.splitOn_joinWith isEmpty fun name member => (areNames name member).2.2]
    refine List.filter_eq_self.mpr fun name member => ?_
    obtain ⟨notEmpty, notHere, _⟩ := areNames name member
    simp [notEmpty, notHere]

/-- The anchor of a text is told by the slashes at its beginning. -/
theorem anchor_ofText
    {text : Text}
    (noSlash : ∀ rest, text ≠ '/' :: rest) :
    Anchor.ofText text = .current ∧
      Anchor.ofText ('/' :: text) = .root ∧
      Anchor.ofText ('/' :: '/' :: text) = .doubleRoot := by
  cases text with
  | nil => exact ⟨rfl, rfl, rfl⟩
  | cons c rest =>
      have other : c ≠ '/' := by
        rintro rfl
        exact noSlash rest rfl
      simp [Anchor.ofText, other]

/-- A path of names is read back from how it is written. -/
theorem ofText_toText
    (proper : path.Proper) :
    ofText path.toText = path := by
  obtain ⟨anchor, names⟩ := path
  obtain ⟨isCurrent, isRoot, isDoubleRoot⟩ := anchor_ofText (joinWith_ne_slash proper)
  have isRead := filter_splitOn_joinWith proper
  cases anchor with
  | current =>
      cases names with
      | nil => rfl
      | cons name others =>
          change Path.mk (Anchor.ofText (Text.joinWith ['/'] (name :: others))) _ = _
          rw [isCurrent]
          exact congrArg (Path.mk .current) isRead
  | root =>
      change Path.mk (Anchor.ofText ('/' :: Text.joinWith ['/'] names)) _ = _
      rw [isRoot]
      exact congrArg (Path.mk .root) isRead
  | doubleRoot =>
      change Path.mk (Anchor.ofText ('/' :: '/' :: Text.joinWith ['/'] names)) _ = _
      rw [isDoubleRoot]
      exact congrArg (Path.mk .doubleRoot) isRead

/-! ## Settled paths -/

/-- Settling takes names away, and brings none in. -/
theorem mem_of_mem_settle
    {name : Text}
    (member : name ∈ settle names) :
    name ∈ names := by
  have within (start : List Text) (inWay : name ∈ names.foldl follow start) :
      name ∈ start ∨ name ∈ names := by
    clear member
    induction names generalizing start with
    | nil => exact Or.inl inWay
    | cons next others inductionHypothesis =>
        rcases inductionHypothesis (follow start next) inWay with inFirst | inOthers
        · unfold follow at inFirst
          split at inFirst
          · exact Or.inl ((List.dropLast_sublist start).subset inFirst)
          · rcases List.mem_append.mp inFirst with inStart | isNext
            · exact Or.inl inStart
            · exact Or.inr (List.mem_cons.mpr (Or.inl (List.mem_singleton.mp isNext)))
        · exact Or.inr (List.mem_cons_of_mem next inOthers)
  simpa using within [] member

/-- A path from the root directory on that never leads above. -/
def IsSettled (path : Path) : Prop :=
  path.isAbsolute = true ∧ above ∉ path.names

theorem settle_eq_self
    (neverAbove : above ∉ names) :
    settle names = names := by
  have follows (start : List Text) : names.foldl follow start = start ++ names := by
    induction names generalizing start with
    | nil => exact (List.append_nil start).symm
    | cons name others inductionHypothesis =>
        obtain ⟨notAbove, othersNeverAbove⟩ := List.ne_and_not_mem_of_not_mem_cons neverAbove
        rw [List.foldl_cons, follow, if_neg (Ne.symm notAbove),
          inductionHypothesis othersNeverAbove, List.append_assoc, List.singleton_append]
  exact follows []

theorem above_not_mem_settle
    (names : List Text) :
    above ∉ settle names := by
  have keeps (start : List Text) (neverAbove : above ∉ start) :
      above ∉ names.foldl follow start := by
    induction names generalizing start with
    | nil => exact neverAbove
    | cons name others inductionHypothesis =>
        refine inductionHypothesis _ ?_
        unfold follow
        split
        · exact fun member => neverAbove ((List.dropLast_sublist start).subset member)
        next notAbove =>
          rw [List.mem_append, List.mem_singleton, not_or]
          exact ⟨neverAbove, Ne.symm notAbove⟩
  exact keeps [] List.not_mem_nil

/-- What a path denotes in a directory is a settled path. -/
theorem isSettled_settled
    (path workingDirectory : Path) :
    (path.settled workingDirectory).IsSettled :=
  ⟨rfl, above_not_mem_settle _⟩

/-- Where an absolute path leads to does not depend on the current directory. -/
theorem settled_of_isAbsolute
    (absolute : path.isAbsolute = true)
    (workingDirectory : Path) :
    path.settled workingDirectory = { anchor := .root, names := settle path.names } := by
  simp [settled, straightened, join, absolute]

end Path

/-! ## Labels -/

namespace Project

variable {project : Project} {workingDirectory path : Path}

/-- The path that is shown for a path. -/
def shown (project : Project) (workingDirectory path : Path) : Path :=
  match project.root.relativeTo? (path.settled workingDirectory) with
  | some inside => if path.canLead then inside else path
  | none => path

theorem relative_eq_toText_shown
    (project : Project)
    (workingDirectory path : Path) :
    project.relative workingDirectory path = (project.shown workingDirectory path).toText := by
  unfold relative shown
  cases project.root.relativeTo? (path.settled workingDirectory) with
  | some inside => exact (apply_ite Path.toText _ _ _).symm
  | none => rfl

/-- What is shown for an absolute path is the path, or what leads to it from the project's root. -/
theorem shown_cases
    (project : Project)
    (absolute : path.isAbsolute = true) :
    project.shown workingDirectory path = path ∨
      ∃ rest,
        project.shown workingDirectory path = { anchor := .current, names := rest } ∧
          Path.settle path.names = project.root.names ++ rest := by
  unfold shown
  rw [Path.settled_of_isAbsolute absolute]
  split
  next inside leads =>
    split
    · unfold Path.relativeTo? at leads
      split at leads
      · obtain ⟨rest, isRest, rfl⟩ := Option.map_eq_some_iff.mp leads
        exact Or.inr ⟨rest, rfl, (List.isPrefixOf?_eq_some_iff_append_eq.mp isRest).symm⟩
      · cases leads
    · exact Or.inl rfl
  next => exact Or.inl rfl

theorem proper_shown
    (absolute : path.isAbsolute = true)
    (proper : path.Proper) :
    (project.shown workingDirectory path).Proper := by
  rcases @shown_cases workingDirectory path project absolute with isPath | ⟨rest, isRest, isSettled⟩
  · rwa [isPath]
  · rw [isRest]
    intro name member
    have inSettled : name ∈ Path.settle path.names := by
      rw [isSettled]
      exact List.mem_append_right _ member
    exact proper name (Path.mem_of_mem_settle inSettled)

/-- Two absolute paths with one label denote one place. -/
theorem settle_eq_of_relative_eq
    {first second : Path}
    (firstAbsolute : first.isAbsolute = true)
    (secondAbsolute : second.isAbsolute = true)
    (firstProper : first.Proper)
    (secondProper : second.Proper)
    (same : project.relative workingDirectory first = project.relative workingDirectory second) :
    Path.settle first.names = Path.settle second.names := by
  have sameShown :
      project.shown workingDirectory first = project.shown workingDirectory second := by
    rw [relative_eq_toText_shown, relative_eq_toText_shown] at same
    rw [← Path.ofText_toText (proper_shown firstAbsolute firstProper), same,
      Path.ofText_toText (proper_shown secondAbsolute secondProper)]
  rcases @shown_cases workingDirectory first project firstAbsolute with
    firstShown | ⟨rest, firstShown, firstSettled⟩ <;>
  rcases @shown_cases workingDirectory second project secondAbsolute with
    secondShown | ⟨others, secondShown, secondSettled⟩ <;>
  rw [firstShown, secondShown] at sameShown
  · rw [sameShown]
  · rw [sameShown] at firstAbsolute
    cases firstAbsolute
  · rw [← sameShown] at secondAbsolute
    cases secondAbsolute
  · cases sameShown
    rw [firstSettled, secondSettled]

end Project

end TestAudit
