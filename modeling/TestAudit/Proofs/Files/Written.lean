import TestAudit.Proofs.Files.Change

namespace TestAudit.Tree

/-!
# Written files

Writing a file, once the directories above it are there, puts one node. Everywhere else the
tree is as before, but for the directories that were missing, and writing the same once more
changes nothing.
-/

variable {tree between changed : Tree} {path : Path} {route above : Route}

/-- A tree in which a file was written: elsewhere only missing directories above it are new. -/
structure WrittenAt
    (tree changed : Tree)
    (path : Path)
    (content : List UInt8)
    (target : Route) : Prop where
  start : changed.workingDirectory = tree.workingDirectory
  located : changed.locate path = .ok target
  isFile : changed.node? target = some (.file content)
  overwritten : ∀ node, tree.node? target = some node → ∃ old, node = .file old
  elsewhere : ∀ route, route ≠ target →
    changed.node? route = tree.node? route ∨
      tree.node? route = none ∧ changed.node? route = some .directory ∧
        ∃ front, front <+: path.parent.names ∧
          changed.locate { path with names := front } = .ok route
  below : ∀ above,
    (∀ front route, front <+: path.names →
      changed.locate { path with names := front } = .ok route → ¬ above <+: route) →
    changed.below above = tree.below above

variable {content : List UInt8} {target : Route}

theorem write_eq_ok
    (written : tree.write path content = .ok changed) :
    ∃ route, tree.entryRoute path = .ok route ∧
      (∀ node, tree.node? route = some node → ∃ old, node = .file old) ∧
      changed = tree.put route (.file content) := by
  unfold write update at written
  split at written
  · cases written
  next route isEntry =>
    refine ⟨route, isEntry, ?_⟩
    split at written
    · cases written
    · cases written
    · cases written
    next old isFile =>
      cases written
      rw [isFile]
      exact ⟨fun node same => ⟨old, (Option.some.inj same).symm⟩, rfl⟩
    next isFree =>
      cases written
      rw [isFree]
      exact ⟨nofun, rfl⟩

theorem ne_directory_of_overwritten
    (overwritten : ∀ node, tree.node? route = some node → ∃ old, node = .file old) :
    tree.node? route ≠ some .directory := by
  intro isDirectory
  obtain ⟨_, ⟨⟩⟩ := overwritten _ isDirectory

section Storing

variable (ensured : tree.ensureDirectory path.parent = (between, .ok ()))
variable (written : between.write path content = .ok changed)

include ensured written

theorem exists_writtenAt : ∃ target, WrittenAt tree changed path content target := by
  have grown := grownAlong_ensureDirectory tree path.parent
  rw [ensured] at grown
  obtain ⟨target, isEntry, overwritten, rfl⟩ := write_eq_ok written
  have notDirectory := ne_directory_of_overwritten overwritten
  have keeps : KeepsWays between (between.put target (.file content)) :=
    keepsWays_put notDirectory nofun
  have located : (between.put target (.file content)).locate path = .ok target :=
    locate_put isEntry notDirectory nofun
  refine ⟨target, ?_⟩
  constructor
  case start => exact keeps.start.trans grown.keepsWays.start
  case located => exact located
  case isFile => exact node?_put_self notDirectory
  case overwritten =>
    intro node isNode
    rcases grown.node?_cases target with same | ⟨isAbsent, _⟩
    · exact overwritten node (same.trans isNode)
    · rw [isAbsent] at isNode
      cases isNode
  case elsewhere =>
    intro route other
    rw [node?_put (ne_nil_of_node?_ne_directory notDirectory), if_neg other]
    refine (grown.node?_cases route).imp_right ?_
    rintro ⟨isAbsent, isDirectory, front, isFront, located⟩
    exact ⟨isAbsent, isDirectory, front, isFront, keeps.locate located⟩
  case below =>
    intro above apart
    rw [below_put (apart path.names target (List.prefix_refl _) located)]
    exact grown.below_eq fun front other isFront partLocated =>
      apart front other (isFront.trans (List.dropLast_prefix _)) (keeps.locate partLocated)

end Storing

namespace WrittenAt

variable (written : WrittenAt tree changed path content target)

include written

theorem notDirectory : tree.node? target ≠ some .directory :=
  ne_directory_of_overwritten written.overwritten

theorem keepsWays : KeepsWays tree changed where
  start := written.start
  directory := by
    intro route isDirectory
    have other : route ≠ target := by
      rintro rfl
      exact written.notDirectory isDirectory
    rcases written.elsewhere route other with same | ⟨isAbsent, _⟩
    · rw [same, isDirectory]
    · rw [isAbsent] at isDirectory
      cases isDirectory
  present := by
    intro route isPresent
    by_cases isTarget : route = target
    · rw [isTarget, written.isFile]
      exact Option.some_ne_none _
    · rcases written.elsewhere route isTarget with same | ⟨isAbsent, _⟩
      · rwa [same]
      · exact absurd isAbsent isPresent
  closed := by
    intro route isClosed
    have other : route ≠ target := by
      rintro rfl
      rw [written.isFile] at isClosed
      cases isClosed
    rcases written.elsewhere route other with same | ⟨_, isDirectory, _⟩
    · rw [← same, isClosed]
    · rw [isDirectory] at isClosed
      cases isClosed

/-- What a path leads to is the same afterwards, if it is not the written file. -/
theorem look_of_distinct
    {input : Path}
    {node : Node}
    (distinct : changed.locate input ≠ changed.locate path)
    (looks : tree.look input = .ok (some node)) :
    changed.look input = .ok (some node) := by
  obtain ⟨route, located, isNode⟩ := look_eq_ok_some_iff.mp looks
  have locatedAfter := written.keepsWays.locate located
  have other : route ≠ target := by
    rintro rfl
    exact distinct (locatedAfter.trans written.located.symm)
  rcases written.elsewhere route other with same | ⟨isAbsent, _⟩
  · exact look_eq_ok_some_iff.mpr ⟨route, locatedAfter, same.trans isNode⟩
  · rw [isAbsent] at isNode
    cases isNode

/-- Where a settled path does not go through, the nodes are the same afterwards. -/
theorem node?_eq_of_apart
    (settled : path.IsSettled)
    (apart : ¬ route <+: path.names) :
    changed.node? route = tree.node? route := by
  have isTarget := eq_names_of_locate settled written.located
  refine (written.elsewhere route ?_).resolve_right ?_
  · rintro rfl
    exact apart (isTarget ▸ List.prefix_refl _)
  · rintro ⟨_, _, front, isFront, located⟩
    have isPart : front <+: path.names := isFront.trans (List.dropLast_prefix _)
    have frontSettled : ({ path with names := front } : Path).IsSettled :=
      ⟨settled.1, fun member => settled.2 (isPart.subset member)⟩
    rw [eq_names_of_locate frontSettled located] at apart
    exact apart isPart

/-- What is listed below a route that the path does not go through is the same afterwards. -/
theorem children_eq_of_apart
    (settled : path.IsSettled)
    (apart : ¬ above <+: path.names) :
    changed.children above = tree.children above := by
  rw [children, children, written.below above ?_]
  intro front route isFront located isAbove
  have frontSettled : ({ path with names := front } : Path).IsSettled :=
    ⟨settled.1, fun member => settled.2 (isFront.subset member)⟩
  rw [eq_names_of_locate frontSettled located] at isAbove
  exact apart (isAbove.trans isFront)

/-- Writing the same again changes nothing. -/
theorem again
    (named : path.names ≠ []) :
    changed.ensureDirectory path.parent = (changed, .ok ()) ∧
      changed.write path content = .ok changed := by
  obtain ⟨name, isLast⟩ := Option.ne_none_iff_exists'.mp (mt List.getLast?_eq_none_iff.mp named)
  obtain ⟨directory, parentLocated, advances⟩ := exists_parent_of_locate isLast written.located
  obtain ⟨isDirectory, _⟩ := advance_eq_ok_iff.mp advances
  constructor
  · exact ensureDirectory_of_isDirectory
      (isDirectory_eq_ok_true_iff.mpr ⟨directory, _, parentLocated, isDirectory, rfl⟩)
  · have notRoot := ne_nil_of_node?_ne_directory written.notDirectory
    rw [write, update, entryRoute_of_locate written.located]
    simp only [written.isFile]
    rw [put_eq_self notRoot written.isFile]

end WrittenAt

end TestAudit.Tree
