import TestAudit.Files.Change
import TestAudit.Proofs.Files.Path
import TestAudit.Proofs.Files.WellFormed

namespace TestAudit.Tree

/-!
# Changes of a tree

A change puts a node at a route where there is no directory yet, so whatever was there is
reached on the same way afterwards. The missing directories on a path are put one after the
other, each at a free route that a part of the path leads to.
-/

variable {tree between changed : Tree} {path : Path} {route above : Route} {node : Node}

/-! ## Putting one node -/

theorem lookup_setNode
    (route other : Route)
    (node : Node)
    (nodes : List (Route × Node)) :
    (setNode route node nodes).lookup other =
      if other = route then some node else nodes.lookup other := by
  induction nodes with
  | nil => exact Lookup.lookup_cons other route node []
  | cons entry others inductionHypothesis =>
      obtain ⟨known, old⟩ := entry
      rw [setNode, Lookup.lookup_cons]
      split
      next same =>
        rw [Lookup.lookup_cons, same]
        split
        · rfl
        · rfl
      next different =>
        rw [Lookup.lookup_cons, inductionHypothesis]
        by_cases isKnown : other = known
        · rw [if_pos isKnown, if_pos isKnown, if_neg (isKnown ▸ different)]
        · rw [if_neg isKnown, if_neg isKnown]

theorem notDirectory_of_free
    (isFree : tree.node? route = none) :
    tree.node? route ≠ some .directory := by
  rw [isFree]
  exact (Option.some_ne_none _).symm

theorem ne_nil_of_node?_ne_directory
    (notDirectory : tree.node? route ≠ some .directory) :
    route ≠ [] := by
  rintro rfl
  exact notDirectory (node?_root tree)

theorem node?_put
    (notRoot : route ≠ [])
    (other : Route) :
    (tree.put route node).node? other = if other = route then some node else tree.node? other := by
  rw [node?, put, lookup_setNode, node?]
  split
  next isRoot => rw [if_neg (isRoot ▸ notRoot.symm)]
  next => rfl

theorem node?_put_self
    (notDirectory : tree.node? route ≠ some .directory) :
    (tree.put route node).node? route = some node := by
  rw [node?_put (ne_nil_of_node?_ne_directory notDirectory), if_pos rfl]

/-- Putting the node that is there changes nothing. -/
theorem put_eq_self
    (notRoot : route ≠ [])
    (isNode : tree.node? route = some node) :
    tree.put route node = tree := by
  have isSet (nodes : List (Route × Node)) (found : nodes.lookup route = some node) :
      setNode route node nodes = nodes := by
    induction nodes with
    | nil => cases found
    | cons entry others inductionHypothesis =>
        obtain ⟨known, old⟩ := entry
        rw [Lookup.lookup_cons] at found
        rw [setNode]
        split
        next same =>
          rw [if_pos same.symm] at found
          cases found
          rw [same]
        next different =>
          rw [if_neg (Ne.symm different)] at found
          rw [inductionHypothesis found]
  rw [node?, if_neg notRoot] at isNode
  rw [put, isSet _ isNode]

/-- A node is listed below the directories on its route only. -/
theorem below_put
    (apart : ¬ above <+: route) :
    (tree.put route node).below above = tree.below above := by
  have ignored : above.isPrefixOf? route = none := by
    refine Option.eq_none_iff_forall_ne_some.mpr fun names isPrefix => apart ?_
    exact ⟨names, List.isPrefixOf?_eq_some_iff_append_eq.mp isPrefix⟩
  rw [below, below, put]
  induction tree.nodes with
  | nil => simp only [setNode, List.filterMap_cons, ignored]
  | cons entry others inductionHypothesis =>
      obtain ⟨known, old⟩ := entry
      rw [setNode]
      split
      next same => simp only [List.filterMap_cons, same, ignored]
      next => rw [List.filterMap_cons, List.filterMap_cons, inductionHypothesis]

/-! ## Ways that stay -/

/--
What can be reached in a tree is reached in a changed one: nothing is gone, and no new directory
is closed.
-/
structure KeepsWays (tree changed : Tree) : Prop where
  start : changed.workingDirectory = tree.workingDirectory
  directory : ∀ route, tree.node? route = some .directory → changed.node? route = some .directory
  present : ∀ route, tree.node? route ≠ none → changed.node? route ≠ none
  closed : ∀ route, changed.node? route = some .closedDirectory →
    tree.node? route = some .closedDirectory

namespace KeepsWays

theorem refl
    (tree : Tree) :
    KeepsWays tree tree :=
  ⟨rfl, fun _ => id, fun _ => id, fun _ => id⟩

theorem trans
    (first : KeepsWays tree between)
    (second : KeepsWays between changed) :
    KeepsWays tree changed where
  start := second.start.trans first.start
  directory := fun route isDirectory => second.directory route (first.directory route isDirectory)
  present := fun route isPresent => second.present route (first.present route isPresent)
  closed := fun route isClosed => first.closed route (second.closed route isClosed)

theorem advance
    (keeps : KeepsWays tree changed)
    {name : Text}
    {target : Route}
    (advances : tree.advance route name = .ok target) :
    changed.advance route name = .ok target := by
  obtain ⟨isDirectory, fits, isTarget, isPresent⟩ := advance_eq_ok_iff.mp advances
  exact advance_eq_ok_iff.mpr
    ⟨keeps.directory route isDirectory, fits, isTarget, keeps.present target isPresent⟩

theorem follow
    (keeps : KeepsWays tree changed)
    {names : List Text}
    {target : Route}
    (leads : tree.follow route names = .ok target) :
    changed.follow route names = .ok target := by
  induction names generalizing route with
  | nil => exact leads
  | cons name others inductionHypothesis =>
      obtain ⟨next, advances, goesOn⟩ := follow_cons_eq_ok_iff.mp leads
      exact follow_cons_eq_ok_iff.mpr ⟨next, keeps.advance advances, inductionHypothesis goesOn⟩

theorem locate
    (keeps : KeepsWays tree changed)
    (located : tree.locate path = .ok route) :
    changed.locate path = .ok route := by
  obtain ⟨canLead, leads⟩ := locate_eq_ok_iff.mp located
  refine locate_eq_ok_iff.mpr ⟨canLead, ?_⟩
  rw [Tree.start, keeps.start]
  exact keeps.follow leads

end KeepsWays

theorem keepsWays_put
    (notDirectory : tree.node? route ≠ some .directory)
    (notClosed : node ≠ .closedDirectory) :
    KeepsWays tree (tree.put route node) where
  start := rfl
  directory := by
    intro other isDirectory
    rw [node?_put (ne_nil_of_node?_ne_directory notDirectory), if_neg, isDirectory]
    rintro rfl
    exact notDirectory isDirectory
  present := by
    intro other isPresent
    rw [node?_put (ne_nil_of_node?_ne_directory notDirectory)]
    split
    · exact Option.some_ne_none _
    · exact isPresent
  closed := by
    intro other isClosed
    rw [node?_put (ne_nil_of_node?_ne_directory notDirectory)] at isClosed
    split at isClosed
    · exact (notClosed (Option.some.inj isClosed)).elim
    · exact isClosed

theorem keepsWays_newDirectory
    (isFree : tree.node? route = none) :
    KeepsWays tree (tree.put route .directory) :=
  keepsWays_put (notDirectory_of_free isFree) nofun

/-! ## Settled paths -/

theorem eq_names_of_locate
    (settled : path.IsSettled)
    (located : tree.locate path = .ok route) :
    route = path.names := by
  rw [← Path.settle_eq_self settled.2]
  exact (settled_of_locate settled.1 located).1

theorem node?_eq_of_look
    (settled : path.IsSettled)
    (looks : tree.look path = .ok (some node)) :
    tree.node? path.names = some node := by
  obtain ⟨route, located, isNode⟩ := look_eq_ok_some_iff.mp looks
  rwa [← eq_names_of_locate settled located]

/-- A settled path leads to the node that stands at its names. -/
theorem WellFormed.look_eq
    (wellFormed : tree.WellFormed)
    (settled : path.IsSettled)
    (isNode : tree.node? path.names = some node) :
    tree.look path = .ok (some node) := by
  have canLead : path.canLead = true :=
    List.all_eq_true.mpr fun name member => by
      simpa using (wellFormed.isEntryName isNode member).2.1
  have follows : tree.follow [] path.names = .ok path.names :=
    @WellFormed.follow_eq tree [] path.names node wellFormed isNode
  refine look_eq_ok_some_iff.mpr ⟨path.names, locate_eq_ok_iff.mpr ⟨canLead, ?_⟩, isNode⟩
  rw [start, if_pos settled.1]
  exact follows

/-- Nothing is seen through a closed directory. -/
theorem WellFormed.look_of_closed
    (wellFormed : tree.WellFormed)
    (settled : path.IsSettled)
    (canLead : path.canLead = true)
    {front back : List Text}
    {name : Text}
    (isThrough : path.names = front ++ name :: back)
    (isClosed : tree.node? front = some .closedDirectory) :
    tree.look path = .error { reason := .denied, path } := by
  have reaches : tree.follow [] front = .ok front :=
    @WellFormed.follow_eq tree [] front _ wellFormed isClosed
  have isDenied : tree.locate path = .error .denied := by
    rw [locate, if_pos canLead, start, if_pos settled.1, isThrough, follow_append, reaches]
    change tree.follow front (name :: back) = _
    rw [follow, advance, entry, enter, isClosed]
    rfl
  rw [look, isDenied]
  rfl

/--
A settled path with short names leads to the same node as before, if that is the node of its
names: a change closes no directory on the way.
-/
theorem KeepsWays.look_eq
    (keeps : KeepsWays tree changed)
    (wellFormed : tree.WellFormed)
    (settled : path.IsSettled)
    (fit : ∀ name ∈ path.names, Path.fits name = true)
    (sameNode : changed.node? path.names = tree.node? path.names)
    {found : Option Node}
    (looks : tree.look path = .ok found) :
    changed.look path = .ok found := by
  cases found with
  | some node =>
      obtain ⟨route, located, isNode⟩ := look_eq_ok_some_iff.mp looks
      rw [look_of_locate (keeps.locate located), eq_names_of_locate settled located, sameNode,
        ← eq_names_of_locate settled located, isNode]
  | none =>
      cases looksAfter : changed.look path with
      | ok after =>
          cases after with
          | none => rfl
          | some node =>
              have isNode := sameNode.symm.trans (node?_eq_of_look settled looksAfter)
              rw [wellFormed.look_eq settled isNode] at looks
              cases looks
      | error fault =>
          obtain ⟨_, notAbsent, stops⟩ := look_eq_error_iff.mp looksAfter
          have canLead := canLead_of_locate_eq_error stops notAbsent
          rw [Tree.locate, if_pos canLead, Tree.start, if_pos settled.1] at stops
          obtain ⟨front, name, back, isThrough, isClosed⟩ :=
            exists_closed_of_follow settled.2 fit stops notAbsent
          have wasClosed := keeps.closed front isClosed
          rw [wellFormed.look_of_closed settled canLead isThrough wasClosed] at looks
          cases looks

/-! ## The route of a new node -/

/-- All that the route of a new node is. -/
theorem entryRoute_eq_ok_iff :
    tree.entryRoute path = .ok route ↔
      path.canLead = true ∧
        (path.names = [] ∧ route = tree.start path ∨
          ∃ name directory, path.names.getLast? = some name ∧
            tree.locate path.parent = .ok directory ∧ tree.entry directory name = .ok route) := by
  unfold entryRoute
  split
  next canLead =>
    rw [and_iff_right canLead]
    split
    next isLast =>
      simp [List.getLast?_eq_none_iff.mp isLast, eq_comm]
    next name isLast =>
      have notEmpty : path.names ≠ [] := by
        intro isEmpty
        rw [isEmpty] at isLast
        cases isLast
      simp only [notEmpty, isLast, false_and, false_or, Option.some.injEq]
      cases tree.locate path.parent <;> simp
  next cannotLead => simp [cannotLead]

/-- Once there is a node at its route, a path leads to it. -/
theorem KeepsWays.locate_of_entryRoute
    (keeps : KeepsWays tree changed)
    (isEntry : tree.entryRoute path = .ok route)
    (isPresent : changed.node? route ≠ none) :
    changed.locate path = .ok route := by
  obtain ⟨canLead, ⟨isEmpty, rfl⟩ | ⟨name, directory, isLast, located, isEntry⟩⟩ :=
    entryRoute_eq_ok_iff.mp isEntry
  · refine locate_eq_ok_iff.mpr ⟨canLead, ?_⟩
    rw [isEmpty, Tree.start, Tree.start, keeps.start]
    rfl
  · obtain ⟨isDirectory, fits, isTarget⟩ := entry_eq_ok_iff.mp isEntry
    have shape : path.names = path.parent.names ++ [name] :=
      (List.dropLast_append_getLast? name isLast).symm
    have reaches : changed.follow (changed.start path) path.parent.names = .ok directory :=
      (locate_eq_ok_iff.mp (keeps.locate located)).2
    have advances : changed.advance directory name = .ok route :=
      advance_eq_ok_iff.mpr ⟨keeps.directory directory isDirectory, fits, isTarget, isPresent⟩
    refine locate_eq_ok_iff.mpr ⟨canLead, ?_⟩
    rw [shape, follow_append, reaches]
    exact follow_cons_eq_ok_iff.mpr ⟨route, advances, rfl⟩

/-- Putting a node at the route of a path makes the path lead there. -/
theorem locate_put
    (isEntry : tree.entryRoute path = .ok route)
    (notDirectory : tree.node? route ≠ some .directory)
    (notClosed : node ≠ .closedDirectory) :
    (tree.put route node).locate path = .ok route := by
  refine (keepsWays_put notDirectory notClosed).locate_of_entryRoute isEntry ?_
  rw [node?_put_self notDirectory]
  exact Option.some_ne_none _

/-- Where a path leads to, that is the route of a node at the path. -/
theorem entryRoute_of_locate
    (located : tree.locate path = .ok route) :
    tree.entryRoute path = .ok route := by
  obtain ⟨canLead, leads⟩ := locate_eq_ok_iff.mp located
  refine entryRoute_eq_ok_iff.mpr ⟨canLead, ?_⟩
  cases isLast : path.names.getLast? with
  | none =>
      have isEmpty := List.getLast?_eq_none_iff.mp isLast
      rw [isEmpty] at leads
      exact Or.inl ⟨isEmpty, (Except.ok.inj leads).symm⟩
  | some name =>
      obtain ⟨directory, parentLocated, advances⟩ := exists_parent_of_locate isLast located
      obtain ⟨isDirectory, fits, isTarget, _⟩ := advance_eq_ok_iff.mp advances
      exact Or.inr ⟨name, directory, rfl, parentLocated,
        entry_eq_ok_iff.mpr ⟨isDirectory, fits, isTarget⟩⟩

/-! ## Missing directories -/

/-- A tree to which missing directories on a path were added, one after the other. -/
inductive GrownAlong (path : Path) (tree : Tree) : Tree → Prop where
  | unchanged : GrownAlong path tree tree
  | directory {between : Tree} {front : List Text} {route : Route} :
      GrownAlong path tree between →
      front <+: path.names →
      between.entryRoute { path with names := front } = .ok route →
      between.node? route = none →
      GrownAlong path tree (between.put route .directory)

namespace GrownAlong

theorem of_prefix
    {front : List Text}
    (grown : GrownAlong { path with names := front } tree changed)
    (isFront : front <+: path.names) :
    GrownAlong path tree changed := by
  induction grown with
  | unchanged => exact .unchanged
  | directory _ isPrefix isEntry isFree inductionHypothesis =>
      exact .directory inductionHypothesis (isPrefix.trans isFront) isEntry isFree

theorem keepsWays
    (grown : GrownAlong path tree changed) :
    KeepsWays tree changed := by
  induction grown with
  | unchanged => exact .refl tree
  | directory _ _ _ isFree inductionHypothesis =>
      exact inductionHypothesis.trans (keepsWays_newDirectory isFree)

/-- A node that is new is a directory that a part of the path leads to. -/
theorem node?_cases
    (grown : GrownAlong path tree changed)
    (other : Route) :
    changed.node? other = tree.node? other ∨
      tree.node? other = none ∧ changed.node? other = some .directory ∧
        ∃ front, front <+: path.names ∧
          changed.locate { path with names := front } = .ok other := by
  induction grown with
  | unchanged => exact Or.inl rfl
  | @directory between front route growing isPrefix isEntry isFree inductionHypothesis =>
      have notDirectory := notDirectory_of_free isFree
      by_cases isRoute : other = route
      · have isAbsent : tree.node? other = none := by
          by_contra isPresent
          exact growing.keepsWays.present other isPresent (isRoute ▸ isFree)
        rw [isRoute] at isAbsent ⊢
        exact Or.inr ⟨isAbsent, node?_put_self notDirectory, front, isPrefix,
          locate_put isEntry notDirectory nofun⟩
      · rw [node?_put (ne_nil_of_node?_ne_directory notDirectory), if_neg isRoute]
        refine inductionHypothesis.imp_right ?_
        rintro ⟨isAbsent, isDirectory, part, isPart, located⟩
        exact ⟨isAbsent, isDirectory, part, isPart, (keepsWays_newDirectory isFree).locate located⟩

/-- What is listed below a directory that no part of the path goes through stays the same. -/
theorem below_eq
    (grown : GrownAlong path tree changed)
    (apart : ∀ front other, front <+: path.names →
      changed.locate { path with names := front } = .ok other → ¬ above <+: other) :
    changed.below above = tree.below above := by
  induction grown with
  | unchanged => rfl
  | @directory between front route _ isPrefix isEntry isFree inductionHypothesis =>
      have notDirectory := notDirectory_of_free isFree
      rw [below_put (apart front route isPrefix (locate_put isEntry notDirectory nofun))]
      exact inductionHypothesis fun part other isPart located =>
        apart part other isPart ((keepsWays_newDirectory isFree).locate located)

end GrownAlong

theorem makeDirectory_eq_ok
    (isMade : tree.makeDirectory path = .ok changed) :
    ∃ route, tree.entryRoute path = .ok route ∧ tree.node? route = none ∧
      changed = tree.put route .directory := by
  unfold makeDirectory at isMade
  split at isMade
  · cases isMade
  next route isEntry =>
    split at isMade
    · cases isMade
    next isFree =>
      cases isMade
      exact ⟨route, isEntry, isFree, rfl⟩

/-- Creating one directory, or finding it there, adds at most that directory. -/
theorem grownAlong_orExisting
    {front : List Text}
    (grown : GrownAlong path tree between)
    (isFront : front <+: path.names) :
    GrownAlong path tree (between.orExisting { path with names := front }
      (between.makeDirectory { path with names := front })).1 := by
  cases isMade : between.makeDirectory { path with names := front } with
  | error fault =>
      rw [orExisting]
      split <;> exact grown
  | ok changed =>
      obtain ⟨route, isEntry, isFree, rfl⟩ := makeDirectory_eq_ok isMade
      exact .directory grown isFront isEntry isFree

theorem grownAlong_ensureNames
    (tree : Tree)
    (anchor : Anchor)
    (names : List Text) :
    GrownAlong { anchor, names := names.reverse } tree (tree.ensureNames anchor names).1 := by
  induction names with
  | nil => exact grownAlong_orExisting .unchanged (List.prefix_refl _)
  | cons name outer inductionHypothesis =>
      have above : outer.reverse <+: (name :: outer).reverse := by
        rw [List.reverse_cons]
        exact List.prefix_append _ _
      have grown := @GrownAlong.of_prefix tree _
        { anchor, names := (name :: outer).reverse } _ inductionHypothesis above
      rw [ensureNames]
      split
      -- Where the directory above is missing as well, that one is put before.
      next =>
        split
        next changed isEnsured =>
          rw [isEnsured] at grown
          exact grownAlong_orExisting grown (List.prefix_refl _)
        next => exact grown
      next => exact grownAlong_orExisting .unchanged (List.prefix_refl _)

theorem grownAlong_ensureDirectory
    (tree : Tree)
    (path : Path) :
    GrownAlong path tree (tree.ensureDirectory path).1 := by
  have grown := grownAlong_ensureNames tree path.anchor path.names.reverse
  rwa [List.reverse_reverse] at grown

/-- A directory that is there is not created again. -/
theorem ensureDirectory_of_isDirectory
    (isDirectory : tree.isDirectory path = .ok true) :
    tree.ensureDirectory path = (tree, .ok ()) := by
  have isThere : tree.makeDirectory path = .error { reason := .exists, path } := by
    obtain ⟨route, node, located, isNode, _⟩ := isDirectory_eq_ok_true_iff.mp isDirectory
    rw [makeDirectory, entryRoute_of_locate located]
    simp only [isNode]
  have isKept : tree.orExisting path (tree.makeDirectory path) = (tree, .ok ()) := by
    rw [isThere, orExisting, isDirectory]
  obtain ⟨anchor, names⟩ := path
  rw [ensureDirectory]
  cases isLast : names.reverse with
  | nil =>
      rw [List.reverse_eq_nil_iff.mp isLast] at isKept
      exact isKept
  | cons name outer =>
      have isNames : (name :: outer).reverse = names := by rw [← isLast, List.reverse_reverse]
      rw [ensureNames, isNames]
      dsimp only
      rw [isThere] at isKept ⊢
      exact isKept

end TestAudit.Tree
