import Mathlib.Data.List.Basic
import TestAudit.Files.Tree
import TestAudit.Proofs.Outcome

namespace TestAudit.Tree

/-!
# Files that paths lead to

A name is followed from a directory that can be entered, if it is short enough and leads to a
node; whatever else is known of following paths is derived from that. A path leads to a file
that can be read just when reading it gives its content. The names of a path are looked at
before any of them is followed, so a null character in a path is the fault of reading it, and
it is the fault of no other path.
-/

variable {tree : Tree} {path : Path} {route target : Route} {name : Text} {names : List Text}

/-! ## Following names -/

theorem enter_eq_ok_iff :
    tree.enter route = .ok () ↔ tree.node? route = some .directory := by
  unfold enter
  split
  next isDirectory => exact iff_of_true rfl isDirectory
  next isClosed => exact iff_of_false nofun (by rw [isClosed]; nofun)
  next isFile => exact iff_of_false nofun (by rw [isFile]; nofun)
  next isClosed => exact iff_of_false nofun (by rw [isClosed]; nofun)
  next isMissing => exact iff_of_false nofun (by rw [isMissing]; nofun)

theorem entry_eq_ok_iff :
    tree.entry route name = .ok target ↔
      tree.node? route = some .directory ∧ Path.fits name = true ∧
        target = Path.follow route name := by
  rw [entry, Outcome.bind_eq_ok_iff]
  constructor
  · rintro ⟨_, entered, isTarget⟩
    split at isTarget
    next fits =>
      cases isTarget
      exact ⟨enter_eq_ok_iff.mp entered, fits, rfl⟩
    next => cases isTarget
  · rintro ⟨isDirectory, fits, rfl⟩
    exact ⟨(), enter_eq_ok_iff.mpr isDirectory, if_pos fits⟩

/-- All that following one name can do. -/
theorem advance_eq_ok_iff :
    tree.advance route name = .ok target ↔
      tree.node? route = some .directory ∧ Path.fits name = true ∧
        target = Path.follow route name ∧ tree.node? target ≠ none := by
  rw [advance, Outcome.bind_eq_ok_iff]
  simp only [entry_eq_ok_iff]
  constructor
  · rintro ⟨_, ⟨isDirectory, fits, rfl⟩, isTarget⟩
    split at isTarget
    next isPresent =>
      cases isTarget
      exact ⟨isDirectory, fits, rfl, Option.isSome_iff_ne_none.mp isPresent⟩
    next => cases isTarget
  · rintro ⟨isDirectory, fits, rfl, isPresent⟩
    exact ⟨_, ⟨isDirectory, fits, rfl⟩, if_pos (Option.isSome_iff_ne_none.mpr isPresent)⟩

/-- All that can stop going into a directory. -/
theorem enter_eq_error
    {reason : Reason}
    (stops : tree.enter route = .error reason) :
    reason = .missing ∨ reason = .notDirectory ∨
      reason = .denied ∧ tree.node? route = some .closedDirectory := by
  unfold enter at stops
  split at stops
  · cases stops
  next isClosed =>
    cases stops
    exact Or.inr (Or.inr ⟨rfl, isClosed⟩)
  · cases stops
    exact Or.inr (Or.inl rfl)
  · cases stops
    exact Or.inr (Or.inl rfl)
  · cases stops
    exact Or.inl rfl

/-- All that can stop following one name. -/
theorem advance_eq_error
    {reason : Reason}
    (stops : tree.advance route name = .error reason) :
    reason = .missing ∨ reason = .notDirectory ∨
      reason = .denied ∧ tree.node? route = some .closedDirectory ∨
      reason = .nameTooLong ∧ Path.fits name = false := by
  rcases Outcome.bind_eq_error_iff.mp stops with atEntry | ⟨_, _, isAbsent⟩
  · rcases Outcome.bind_eq_error_iff.mp atEntry with atDirectory | ⟨_, _, isTooLong⟩
    · rcases enter_eq_error atDirectory with isMissing | isNotDirectory | isClosed
      · exact Or.inl isMissing
      · exact Or.inr (Or.inl isNotDirectory)
      · exact Or.inr (Or.inr (Or.inl isClosed))
    · split at isTooLong
      · cases isTooLong
      next doesNotFit =>
        cases isTooLong
        exact Or.inr (Or.inr (Or.inr ⟨rfl, Bool.eq_false_iff.mpr doesNotFit⟩))
  · split at isAbsent
    · cases isAbsent
    · cases isAbsent
      exact Or.inl rfl

theorem follow_cons_eq_ok_iff :
    tree.follow route (name :: names) = .ok target ↔
      ∃ next, tree.advance route name = .ok next ∧ tree.follow next names = .ok target := by
  rw [follow, Outcome.bind_eq_ok_iff]

theorem locate_eq_ok_iff :
    tree.locate path = .ok route ↔
      path.canLead = true ∧ tree.follow (tree.start path) path.names = .ok route := by
  unfold locate
  split
  next canLead => exact (and_iff_right canLead).symm
  next cannotLead => exact iff_of_false nofun fun leads => cannotLead leads.1

/-- Names are followed one part after the other. -/
theorem follow_append
    (route : Route)
    (names others : List Text) :
    tree.follow route (names ++ others) =
      tree.follow route names >>= fun reached => tree.follow reached others := by
  induction names generalizing route with
  | nil => rfl
  | cons name names inductionHypothesis =>
      rw [List.cons_append, follow, follow]
      cases tree.advance route name with
      | error reason => rfl
      | ok next => exact inductionHypothesis next

theorem fits_of_follow
    (leads : tree.follow route names = .ok target) :
    ∀ name ∈ names, Path.fits name = true := by
  induction names generalizing route with
  | nil => exact List.forall_mem_nil _
  | cons name names inductionHypothesis =>
      obtain ⟨next, advances, goesOn⟩ := follow_cons_eq_ok_iff.mp leads
      obtain ⟨_, fits, _⟩ := advance_eq_ok_iff.mp advances
      exact List.forall_mem_cons.mpr ⟨fits, inductionHypothesis goesOn⟩

/-- A path that leads somewhere has short names. -/
theorem fits_of_locate
    (located : tree.locate path = .ok route) :
    ∀ name ∈ path.names, Path.fits name = true :=
  fits_of_follow (locate_eq_ok_iff.mp located).2

/-- Following names never stops at a null character. -/
theorem follow_ne_nullCharacter
    (route : Route)
    (names : List Text) :
    tree.follow route names ≠ .error .nullCharacter := by
  induction names generalizing route with
  | nil => nofun
  | cons name others inductionHypothesis =>
      intro stops
      rcases Outcome.bind_eq_error_iff.mp stops with atName | ⟨next, _, behind⟩
      · rcases advance_eq_error atName with ⟨⟨⟩⟩ | ⟨⟨⟩⟩ | ⟨⟨⟩, _⟩ | ⟨⟨⟩, _⟩
      · exact inductionHypothesis next behind

/-- What stops short names for another reason than that nothing is there is a closed directory. -/
theorem exists_closed_of_follow
    {reason : Reason}
    (neverAbove : Path.above ∉ names)
    (fit : ∀ name ∈ names, Path.fits name = true)
    (stops : tree.follow route names = .error reason)
    (notAbsent : reason.isAbsence = false) :
    ∃ front name back, names = front ++ name :: back ∧
      tree.node? (route ++ front) = some .closedDirectory := by
  induction names generalizing route with
  | nil => cases stops
  | cons name others inductionHypothesis =>
      obtain ⟨fitsName, othersFit⟩ := List.forall_mem_cons.mp fit
      obtain ⟨notAbove, othersNeverAbove⟩ := List.ne_and_not_mem_of_not_mem_cons neverAbove
      rcases Outcome.bind_eq_error_iff.mp stops with atName | ⟨next, advances, behind⟩
      · rcases advance_eq_error atName with rfl | rfl | ⟨rfl, isClosed⟩ | ⟨_, isTooLong⟩
        · cases notAbsent
        · cases notAbsent
        · exact ⟨[], name, others, rfl, by rwa [List.append_nil]⟩
        · rw [fitsName] at isTooLong
          cases isTooLong
      · obtain ⟨_, _, rfl, _⟩ := advance_eq_ok_iff.mp advances
        rw [Path.follow, if_neg (Ne.symm notAbove)] at behind
        obtain ⟨front, last, back, rfl, isClosed⟩ :=
          inductionHypothesis othersNeverAbove othersFit behind
        exact ⟨name :: front, last, back, rfl, by rwa [List.append_cons]⟩

/-! ## What paths lead to -/

theorem look_eq_ok_some_iff
    {node : Node} :
    tree.look path = .ok (some node) ↔
      ∃ route, tree.locate path = .ok route ∧ tree.node? route = some node := by
  unfold look
  split
  next route located => simp [located]
  next reason located =>
    rw [located]
    split
    · exact iff_of_false nofun (by rintro ⟨_, ⟨⟩, _⟩)
    · exact iff_of_false nofun (by rintro ⟨_, ⟨⟩, _⟩)

theorem look_of_locate
    (located : tree.locate path = .ok route) :
    tree.look path = .ok (tree.node? route) := by
  rw [look, located]

theorem look_eq_error_iff
    {fault : Fault} :
    tree.look path = .error fault ↔
      fault.path = path ∧ fault.reason.isAbsence = false ∧
        tree.locate path = .error fault.reason := by
  unfold look
  split
  next located => exact iff_of_false nofun (by simp [located])
  next reason located =>
    rw [located]
    split
    next isAbsent =>
      refine iff_of_false nofun ?_
      rintro ⟨_, notAbsent, ⟨⟩⟩
      rw [isAbsent] at notAbsent
      cases notAbsent
    next notAbsent =>
      constructor
      · rintro ⟨⟩
        exact ⟨rfl, Bool.eq_false_iff.mpr notAbsent, rfl⟩
      · rintro ⟨rfl, _, ⟨⟩⟩
        rfl

theorem canLead_of_locate_eq_error
    {reason : Reason}
    (stops : tree.locate path = .error reason)
    (notAbsent : reason.isAbsence = false) :
    path.canLead = true := by
  unfold locate at stops
  split at stops
  next canLead => exact canLead
  next =>
    rw [← Except.error.inj stops] at notAbsent
    cases notAbsent

/-- A check that can be made tells of the node that a path leads to. -/
theorem isFile_eq_ok_iff
    {isThere : Bool} :
    tree.isFile path = .ok isThere ↔
      ∃ node?, tree.look path = .ok node? ∧ node?.any Node.isFile = isThere := by
  rw [isFile]
  cases tree.look path with
  | error fault => exact iff_of_false nofun (by rintro ⟨_, ⟨⟩, _⟩)
  | ok node? => simp [Except.map]

theorem isDirectory_eq_ok_iff
    {isThere : Bool} :
    tree.isDirectory path = .ok isThere ↔
      ∃ node?, tree.look path = .ok node? ∧ node?.any Node.isDirectory = isThere := by
  rw [isDirectory]
  cases tree.look path with
  | error fault => exact iff_of_false nofun (by rintro ⟨_, ⟨⟩, _⟩)
  | ok node? => simp [Except.map]

theorem isDirectory_eq_ok_true_iff :
    tree.isDirectory path = .ok true ↔
      ∃ route node, tree.locate path = .ok route ∧ tree.node? route = some node ∧
        node.isDirectory = true := by
  rw [isDirectory_eq_ok_iff]
  constructor
  · rintro ⟨_ | node, looks, isThere⟩
    · cases isThere
    · obtain ⟨route, located, isNode⟩ := look_eq_ok_some_iff.mp looks
      exact ⟨route, node, located, isNode, isThere⟩
  · rintro ⟨route, node, located, isNode, isThere⟩
    exact ⟨some node, look_eq_ok_some_iff.mpr ⟨route, located, isNode⟩, isThere⟩

/-- The content of the file that a path leads to, if it leads to a file that can be read. -/
def content? (tree : Tree) (path : Path) : Option (List UInt8) :=
  (tree.read path).toOption

theorem content?_eq_some_iff
    {content : List UInt8} :
    tree.content? path = some content ↔ tree.look path = .ok (some (.file content)) := by
  rw [content?, Outcome.toOption_eq_some_iff, look_eq_ok_some_iff, read]
  cases tree.locate path with
  | error reason => exact iff_of_false nofun (by rintro ⟨_, ⟨⟩, _⟩)
  | ok route =>
      simp only [Except.ok.injEq, exists_eq_left']
      cases tree.node? route with
      | none => exact iff_of_false nofun nofun
      | some node => cases node <;> simp

theorem isFile_of_content?
    {content : List UInt8}
    (isContent : tree.content? path = some content) :
    tree.isFile path = .ok true :=
  isFile_eq_ok_iff.mpr ⟨_, content?_eq_some_iff.mp isContent, rfl⟩

/-- What is not known to be a file has no content. -/
theorem content?_of_isFile_ne
    (notFile : tree.isFile path ≠ .ok true) :
    tree.content? path = none :=
  Option.eq_none_iff_forall_ne_some.mpr fun _ isContent => notFile (isFile_of_content? isContent)

/-- The text of the file that a path leads to, if it leads to a file and its bytes are a text. -/
def text? (tree : Tree) (path : Path) : Option Text :=
  (tree.content? path).bind fun content =>
    (Text.Utf8.decode content).toOption.map Text.unifyNewlines

theorem isFile_of_text?
    {text : Text}
    (isText : tree.text? path = some text) :
    tree.isFile path = .ok true := by
  obtain ⟨content, isContent, _⟩ := Option.bind_eq_some_iff.mp isText
  exact isFile_of_content? isContent

theorem text?_of_isFile_ne
    (notFile : tree.isFile path ≠ .ok true) :
    tree.text? path = none :=
  Option.eq_none_iff_forall_ne_some.mpr fun _ isText => notFile (isFile_of_text? isText)

theorem toOption_readText : (tree.readText path).toOption = tree.text? path := by
  unfold readText text? content?
  cases tree.read path with
  | error fault => rfl
  | ok content =>
      change ((Text.Utf8.decode content).mapError _ >>= fun _ => _).toOption =
        (Text.Utf8.decode content).toOption.map _
      cases Text.Utf8.decode content <;> rfl

/-- Paths lead to the same places in trees with the same nodes. -/
theorem locate_congr
    {other : Tree}
    (sameNodes : ∀ route, other.node? route = tree.node? route)
    (sameStart : other.workingDirectory = tree.workingDirectory)
    (path : Path) :
    other.locate path = tree.locate path := by
  have sameFollow (route : Route) (names : List Text) :
      other.follow route names = tree.follow route names := by
    induction names generalizing route with
    | nil => rfl
    | cons name others inductionHypothesis =>
        simp only [follow, advance, entry, enter, sameNodes, inductionHypothesis]
  rw [locate, locate, start, start, sameStart, sameFollow]

/-! ## Files that are kept -/

section Kept

variable {other : Tree}

theorem content?_congr
    (sameLook : other.look path = tree.look path) :
    other.content? path = tree.content? path := by
  refine Option.ext fun content => ?_
  rw [content?_eq_some_iff, content?_eq_some_iff, sameLook]

/-- A path that leads to the same node in two trees is read alike. -/
theorem readText_congr
    {node : Node}
    (isNode : tree.look path = .ok (some node))
    (isOther : other.look path = .ok (some node)) :
    other.readText path = tree.readText path := by
  have sameRead : other.read path = tree.read path := by
    obtain ⟨route, located, isNode⟩ := look_eq_ok_some_iff.mp isNode
    obtain ⟨otherRoute, otherLocated, isOtherNode⟩ := look_eq_ok_some_iff.mp isOther
    rw [read, read, located, otherLocated]
    dsimp only
    rw [isNode, isOtherNode]
  rw [readText, readText, sameRead]

/-- Where it can be told of a path whether it leads to a file, another tree has the same there. -/
def KeepsFile (tree other : Tree) (path : Path) : Prop :=
  ∀ isThere, tree.isFile path = .ok isThere →
    other.isFile path = .ok isThere ∧ other.content? path = tree.content? path

theorem keepsFile_of_look
    (keeps : ∀ found, tree.look path = .ok found → other.look path = .ok found) :
    KeepsFile tree other path := by
  intro isThere isFile
  obtain ⟨found, looks, isKind⟩ := isFile_eq_ok_iff.mp isFile
  have looksAfter := keeps found looks
  exact ⟨isFile_eq_ok_iff.mpr ⟨found, looksAfter, isKind⟩,
    content?_congr (looksAfter.trans looks.symm)⟩

end Kept

/-! ## Ways through directories -/

/-- Every directory above a route is there. -/
def Inside (tree : Tree) (route : Route) : Prop :=
  ∀ above, above <+: route → above ≠ route → tree.node? above = some .directory

theorem inside_follow
    (inside : tree.Inside route)
    (isDirectory : tree.node? route = some .directory)
    (name : Text) :
    tree.Inside (Path.follow route name) := by
  intro above isAbove other
  unfold Path.follow at isAbove other
  split at isAbove
  next leadsUp =>
    have shorter : above ≠ route := by
      rintro rfl
      rw [if_pos leadsUp] at other
      exact other (isAbove.eq_of_length_le (List.dropLast_prefix above).length_le)
    exact inside above (isAbove.trans (List.dropLast_prefix route)) shorter
  next leadsDown =>
    rw [if_neg leadsDown] at other
    by_cases isRoute : above = route
    · rw [isRoute]
      exact isDirectory
    · exact inside above ((List.prefix_concat_iff.mp isAbove).resolve_left other) isRoute

/-- Names that are followed lead to the route that they describe, through directories only. -/
theorem inside_of_follow
    (inside : tree.Inside route)
    (leads : tree.follow route names = .ok target) :
    target = names.foldl Path.follow route ∧ tree.Inside target := by
  induction names generalizing route with
  | nil =>
      cases leads
      exact ⟨rfl, inside⟩
  | cons name names inductionHypothesis =>
      obtain ⟨_, atName, goesOn⟩ := follow_cons_eq_ok_iff.mp leads
      obtain ⟨isDirectory, _, rfl, _⟩ := advance_eq_ok_iff.mp atName
      exact inductionHypothesis (inside_follow inside isDirectory name) goesOn

theorem inside_nil : tree.Inside [] := by
  intro above isAbove other
  exact (other (List.prefix_nil.mp isAbove)).elim

/-- An absolute path leads where it settles, through directories only, if it leads anywhere. -/
theorem settled_of_locate
    (absolute : path.isAbsolute = true)
    (located : tree.locate path = .ok route) :
    route = Path.settle path.names ∧ tree.Inside route := by
  have leads := (locate_eq_ok_iff.mp located).2
  rw [start, if_pos absolute] at leads
  exact inside_of_follow inside_nil leads

theorem locate_of_content?
    {content : List UInt8}
    (isContent : tree.content? path = some content) :
    ∃ route, tree.locate path = .ok route ∧ tree.node? route = some (.file content) :=
  look_eq_ok_some_iff.mp (content?_eq_some_iff.mp isContent)

/-- The last name of a path is followed from the directory that the names before it lead to. -/
theorem exists_parent_of_locate
    (isLast : path.names.getLast? = some name)
    (located : tree.locate path = .ok route) :
    ∃ directory, tree.locate path.parent = .ok directory ∧
      tree.advance directory name = .ok route := by
  have shape : path.names = path.parent.names ++ [name] :=
    (List.dropLast_append_getLast? name isLast).symm
  obtain ⟨canLead, leads⟩ := locate_eq_ok_iff.mp located
  rw [shape, follow_append] at leads
  obtain ⟨directory, reaches, goesOn⟩ := Outcome.bind_eq_ok_iff.mp leads
  obtain ⟨_, advances, isEnd⟩ := follow_cons_eq_ok_iff.mp goesOn
  cases isEnd
  have parentCanLead : path.parent.canLead = true := by
    rw [Path.canLead, shape, List.all_append, Bool.and_eq_true] at canLead
    exact canLead.1
  exact ⟨directory, locate_eq_ok_iff.mpr ⟨parentCanLead, reaches⟩, advances⟩

/-- Going on from a directory by two dots leads to a directory again. -/
theorem node?_dropLast
    (inside : tree.Inside route)
    (isDirectory : tree.node? route = some .directory) :
    tree.node? route.dropLast = some .directory := by
  by_cases same : route.dropLast = route
  · rw [same]
    exact isDirectory
  · exact inside _ (List.dropLast_prefix route) same

/-- A file that an absolute path leads to stands where the path settles, under its last name. -/
theorem settled_of_content?
    (absolute : path.isAbsolute = true)
    {content : List UInt8}
    (isContent : tree.content? path = some content) :
    tree.node? (Path.settle path.names) = some (.file content) ∧
      (Path.settle path.names).getLast? = path.names.getLast? := by
  obtain ⟨route, located, isFile⟩ := locate_of_content? isContent
  obtain ⟨isSettled, _⟩ := settled_of_locate absolute located
  rw [← isSettled]
  refine ⟨isFile, ?_⟩
  cases isLast : path.names.getLast? with
  | none =>
      rw [isSettled, List.getLast?_eq_none_iff.mp isLast] at isFile
      cases isFile
  | some name =>
      obtain ⟨directory, parentLocated, advances⟩ := exists_parent_of_locate isLast located
      obtain ⟨isDirectory, _, rfl, _⟩ := advance_eq_ok_iff.mp advances
      obtain ⟨_, inside⟩ := @settled_of_locate tree path.parent directory absolute parentLocated
      unfold Path.follow at isFile ⊢
      split
      next leadsUp =>
        rw [if_pos leadsUp, node?_dropLast inside isDirectory] at isFile
        cases isFile
      next => rw [List.getLast?_concat]

/-! ## Paths that can lead somewhere -/

theorem read_of_not_canLead
    (cannotLead : path.canLead = false) :
    tree.read path = .error { reason := .nullCharacter, path } := by
  simp [read, locate, cannotLead]

theorem reason_of_read
    {fault : Fault}
    (canLead : path.canLead = true)
    (unreadable : tree.read path = .error fault) :
    fault.reason ≠ .nullCharacter := by
  unfold read at unreadable
  split at unreadable
  next reason isReason =>
    cases unreadable
    rw [locate, if_pos canLead] at isReason
    rintro rfl
    exact follow_ne_nullCharacter _ _ isReason
  next =>
    split at unreadable <;> cases unreadable <;> nofun

/-- A path that cannot lead anywhere is the fault of reading a text from it. -/
theorem readText_of_not_canLead
    (cannotLead : path.canLead = false) :
    tree.readText path = .error (.access { reason := .nullCharacter, path }) := by
  rw [readText, read_of_not_canLead cannotLead]
  rfl

/-- Where a path can lead somewhere, it is not at fault for a text that cannot be read. -/
theorem reason_of_readText
    {fault : Fault}
    (canLead : path.canLead = true)
    (unreadable : tree.readText path = .error (.access fault)) :
    fault.reason ≠ .nullCharacter := by
  rcases Outcome.bind_eq_error_iff.mp unreadable with atAccess | ⟨content, _, behind⟩
  · obtain ⟨_, isFault, same⟩ := Outcome.mapError_eq_error_iff.mp atAccess
    cases same
    exact reason_of_read canLead isFault
  · rcases Outcome.bind_eq_error_iff.mp behind with atDecoding | ⟨_, _, impossible⟩
    · obtain ⟨_, _, same⟩ := Outcome.mapError_eq_error_iff.mp atDecoding
      cases same
    · cases impossible

end TestAudit.Tree
