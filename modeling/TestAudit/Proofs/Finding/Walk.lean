import TestAudit.Finding.Discovery
import TestAudit.Proofs.Files.Names
import TestAudit.Proofs.Files.WellFormed

namespace TestAudit.Discovery

/-!
# The walk through directories

A walk gives the test files of a directory and then what it gives for each of the directories
in it, so what holds of all that is found is shown along the walk: it finds exactly the test
files that stand in directories that are searched, each once, however the entries of a
directory are listed.
-/

variable {tree other : Tree} {directory : Path} {route names : Route} {name : Text}

/-! ## The steps of a walk -/

/-- In a directory the walk takes the test files, and then goes through each directory in it. -/
theorem walk_of_directory
    (isDirectory : tree.node? route = some .directory) :
    walk tree route =
      (Tree.sortedNames isOwnTestFile (tree.children route)).map ([·]) ++
        (Tree.sortedNames isSearchedDirectory (tree.children route)).flatMap fun name =>
          (walk tree (route ++ [name])).map (name :: ·) := by
  rw [walk, Tree.enter_eq_ok_iff.mpr isDirectory]
  dsimp only
  rw [List.flatMap_subtype, List.unattach_attach]
  exact fun _ _ => rfl

theorem walk_of_not_directory
    (notDirectory : tree.node? route ≠ some .directory) :
    walk tree route = [] := by
  rw [walk]
  split
  · rfl
  next entered => exact (notDirectory (Tree.enter_eq_ok_iff.mp entered)).elim

theorem testFilesBelow_eq_map
    (located : tree.locate directory = .ok route) :
    testFilesBelow tree directory = (walk tree route).map directory.descend := by
  rw [testFilesBelow, located]

/-- In a well-formed tree nothing is listed below what cannot be entered. -/
theorem walk_of_wellFormed
    (wellFormed : tree.WellFormed) :
    walk tree route =
      (Tree.sortedNames isOwnTestFile (tree.children route)).map ([·]) ++
        (Tree.sortedNames isSearchedDirectory (tree.children route)).flatMap fun name =>
          (walk tree (route ++ [name])).map (name :: ·) := by
  by_cases isDirectory : tree.node? route = some .directory
  · exact walk_of_directory isDirectory
  · rw [walk_of_not_directory isDirectory, wellFormed.children_eq_nil isDirectory]
    simp [Tree.sortedNames]

theorem nil_not_mem_walk : [] ∉ walk tree route := by
  by_cases isDirectory : tree.node? route = some .directory
  · simp [walk_of_directory isDirectory]
  · simp [walk_of_not_directory isDirectory]

/-- What a walk finds is a test file of the directory, or found by a walk through one in it. -/
theorem cons_mem_walk_iff :
    name :: names ∈ walk tree route ↔
      tree.node? route = some .directory ∧
        (names = [] ∧ name ∈ Tree.sortedNames isOwnTestFile (tree.children route) ∨
          name ∈ Tree.sortedNames isSearchedDirectory (tree.children route) ∧
            names ∈ walk tree (route ++ [name])) := by
  by_cases isDirectory : tree.node? route = some .directory
  · rw [walk_of_directory isDirectory, List.mem_append, List.mem_map, List.mem_flatMap,
      and_iff_right isDirectory]
    refine or_congr ?_ ?_
    · constructor
      · rintro ⟨_, isOwn, ⟨⟩⟩
        exact ⟨rfl, isOwn⟩
      · rintro ⟨rfl, isOwn⟩
        exact ⟨name, isOwn, rfl⟩
    · constructor
      · rintro ⟨_, isSearched, inDirectory⟩
        obtain ⟨_, isBelow, ⟨⟩⟩ := List.mem_map.mp inDirectory
        exact ⟨isSearched, isBelow⟩
      · rintro ⟨isSearched, isBelow⟩
        exact ⟨name, isSearched, List.mem_map_of_mem isBelow⟩
  · rw [walk_of_not_directory isDirectory]
    exact iff_of_false List.not_mem_nil fun inDirectory => isDirectory inDirectory.1

/-- In any tree, what a walk finds has the name of a test file. -/
theorem isTestFileName_of_mem_walk
    (found : names ∈ walk tree route) :
    ∃ directories name, names = directories ++ [name] ∧ isTestFileName name = true := by
  induction names generalizing route with
  | nil => exact (nil_not_mem_walk found).elim
  | cons first others inductionHypothesis =>
      obtain ⟨_, ⟨rfl, isOwn⟩ | ⟨_, isBelow⟩⟩ := cons_mem_walk_iff.mp found
      · obtain ⟨node, _, isTest⟩ := Tree.mem_sortedNames_iff.mp isOwn
        rw [isOwnTestFile, Bool.and_eq_true] at isTest
        exact ⟨[], first, rfl, isTest.2⟩
      · obtain ⟨directories, name, rfl, isTest⟩ := inductionHypothesis isBelow
        exact ⟨first :: directories, name, rfl, isTest⟩

/-! ## The files that are found -/

/--
A test file below a route: it stands in directories that are searched, under the name of a
test file.
-/
structure IsTestFile (tree : Tree) (route directories : Route) (name : Text) : Prop where
  isFile : ∃ node, tree.node? (route ++ directories ++ [name]) = some node ∧ node.isFile = true
  isTestFileName : isTestFileName name = true
  isSearched : ∀ directory ∈ directories, directory ∉ skippedDirectories

namespace IsTestFile

variable {directories : Route}

/-- Above a test file there are directories that can be entered. -/
theorem node?_eq
    (wellFormed : tree.WellFormed)
    (isTest : IsTestFile tree route directories name)
    {above : Route}
    (isAbove : above <+: route ++ directories) :
    tree.node? above = some .directory := by
  obtain ⟨node, isNode, _⟩ := isTest.isFile
  refine wellFormed.inside isNode above (isAbove.trans (List.prefix_append _ _)) ?_
  rintro rfl
  have shorter := isAbove.length_le
  rw [List.length_append, List.length_singleton] at shorter
  omega

theorem nil_iff
    (wellFormed : tree.WellFormed) :
    IsTestFile tree route [] name ↔
      ∃ node, (name, node) ∈ tree.children route ∧ isOwnTestFile (name, node) = true := by
  have notRoot : route ++ [name] ≠ [] := List.concat_ne_nil name route
  simp only [Tree.mem_children_iff, ← wellFormed.node?_eq_some_iff notRoot, isOwnTestFile,
    Bool.and_eq_true]
  constructor
  · rintro ⟨⟨node, isNode, isFile⟩, isTestFileName, _⟩
    rw [List.append_nil] at isNode
    exact ⟨node, isNode, isFile, isTestFileName⟩
  · rintro ⟨node, isNode, isFile, isTestFileName⟩
    rw [← List.append_nil route] at isNode
    exact ⟨⟨node, isNode, isFile⟩, isTestFileName, nofun⟩

theorem cons_iff
    (wellFormed : tree.WellFormed)
    {first : Text} :
    IsTestFile tree route (first :: directories) name ↔
      (∃ node, (first, node) ∈ tree.children route ∧ isSearchedDirectory (first, node) = true) ∧
        IsTestFile tree (route ++ [first]) directories name := by
  have notRoot : route ++ [first] ≠ [] := List.concat_ne_nil first route
  simp only [Tree.mem_children_iff, ← wellFormed.node?_eq_some_iff notRoot]
  constructor
  · intro isTest
    have isDirectory : tree.node? (route ++ [first]) = some .directory :=
      isTest.node?_eq wellFormed ⟨directories, (List.append_cons route first directories).symm⟩
    obtain ⟨isFile, isTestFileName, isSearched⟩ := isTest
    obtain ⟨firstSearched, othersSearched⟩ := List.forall_mem_cons.mp isSearched
    rw [List.append_cons route first directories] at isFile
    refine ⟨⟨.directory, isDirectory, ?_⟩, isFile, isTestFileName, othersSearched⟩
    simpa [isSearchedDirectory, Node.isDirectory] using firstSearched
  · rintro ⟨⟨node, _, firstSearched⟩, isFile, isTestFileName, othersSearched⟩
    rw [← List.append_cons route first directories] at isFile
    refine ⟨isFile, isTestFileName, List.forall_mem_cons.mpr ⟨?_, othersSearched⟩⟩
    rw [isSearchedDirectory, Bool.and_eq_true] at firstSearched
    simpa using firstSearched.2

end IsTestFile

theorem mem_walk_iff
    (wellFormed : tree.WellFormed) :
    names ∈ walk tree route ↔
      ∃ directories name, names = directories ++ [name] ∧
        IsTestFile tree route directories name := by
  induction names generalizing route with
  | nil =>
      refine iff_of_false nil_not_mem_walk ?_
      rintro ⟨directories, name, isEmpty, _⟩
      exact List.concat_ne_nil name directories isEmpty.symm
  | cons first others inductionHypothesis =>
      rw [cons_mem_walk_iff, Tree.mem_sortedNames_iff, Tree.mem_sortedNames_iff,
        inductionHypothesis]
      constructor
      · rintro ⟨_, ⟨rfl, isOwn⟩ | ⟨isSearched, directories, name, rfl, isTest⟩⟩
        · exact ⟨[], first, rfl, (IsTestFile.nil_iff wellFormed).mpr isOwn⟩
        · exact ⟨first :: directories, name, rfl,
            (IsTestFile.cons_iff wellFormed).mpr ⟨isSearched, isTest⟩⟩
      · rintro ⟨directories, name, isNames, isTest⟩
        refine ⟨isTest.node?_eq wellFormed (List.prefix_append route directories), ?_⟩
        cases directories with
        | nil =>
            cases isNames
            exact Or.inl ⟨rfl, (IsTestFile.nil_iff wellFormed).mp isTest⟩
        | cons directory directories =>
            cases isNames
            obtain ⟨isSearched, isBelow⟩ := (IsTestFile.cons_iff wellFormed).mp isTest
            exact Or.inr ⟨isSearched, directories, name, rfl, isBelow⟩

/-- A walk finds no file twice. -/
theorem nodup_walk
    (different : (tree.nodes.map Prod.fst).Nodup)
    (route : Route) :
    (walk tree route).Nodup := by
  induction route using walk.induct tree with
  | case1 route reason isClosed =>
      rw [walk, isClosed]
      exact List.nodup_nil
  | case2 route entered inductionHypothesis =>
      have ordered (isKind : Text × Node → Bool) :
          (Tree.sortedNames isKind (tree.children route)).Nodup :=
        (Tree.pairwise_sortedNames (Tree.nodup_children different route)).imp And.right
      rw [walk_of_directory (Tree.enter_eq_ok_iff.mp entered)]
      -- Own files differ, what is below one directory differs, what is below two directories
      -- begins with their names, and an own file is no longer than its name.
      refine List.nodup_append'.mpr ⟨?_, List.nodup_flatMap.mpr ⟨?_, ?_⟩, ?_⟩
      · exact (ordered isOwnTestFile).map fun _ _ same => (List.cons.inj same).1
      · exact fun name isSearched =>
          (inductionHypothesis name isSearched).map fun _ _ same => (List.cons.inj same).2
      · refine (ordered isSearchedDirectory).imp fun differ names inFirst inSecond => ?_
        obtain ⟨_, _, rfl⟩ := List.mem_map.mp inFirst
        obtain ⟨_, _, same⟩ := List.mem_map.mp inSecond
        exact differ (List.cons.inj same).1.symm
      · intro names isOwn isBelow
        obtain ⟨_, _, rfl⟩ := List.mem_map.mp isOwn
        obtain ⟨_, _, inDirectory⟩ := List.mem_flatMap.mp isBelow
        obtain ⟨_, found, same⟩ := List.mem_map.mp inDirectory
        rw [(List.cons.inj same).2] at found
        exact nil_not_mem_walk found

/-- The walk does not depend on the order in which the nodes of a tree are listed. -/
theorem walk_eq_of_perm
    (wellFormed : tree.WellFormed)
    (permuted : other.nodes.Perm tree.nodes)
    (route : Route) :
    walk other route = walk tree route := by
  have sameNode := wellFormed.node?_eq_of_perm permuted
  induction route using walk.induct tree with
  | case1 route reason isClosed =>
      have notDirectory : tree.node? route ≠ some .directory := by
        intro isDirectory
        rw [Tree.enter_eq_ok_iff.mpr isDirectory] at isClosed
        cases isClosed
      rw [walk_of_not_directory notDirectory, walk_of_not_directory (sameNode route ▸ notDirectory)]
  | case2 route entered inductionHypothesis =>
      have isDirectory := Tree.enter_eq_ok_iff.mp entered
      have sameChildren : (other.children route).Perm (tree.children route) :=
        (permuted.filterMap _).filterMap _
      rw [walk_of_directory isDirectory,
        @walk_of_directory other route ((sameNode route).trans isDirectory),
        Tree.sortedNames_eq_of_perm sameChildren, Tree.sortedNames_eq_of_perm sameChildren]
      refine congrArg (_ ++ ·) (List.flatMap_congr fun name isSearched => ?_)
      rw [inductionHypothesis name isSearched]

end TestAudit.Discovery
