import TestAudit.Proofs.Distinct
import TestAudit.Proofs.Finding.Walk
import TestAudit.Proofs.Search

namespace TestAudit.Discovery

/-!
# Complete discovery

The paths that are found lead to different files, and to every test file that is not in a
skipped directory. The conventional directories of a project stand side by side in its root,
so no file is below two of them.
-/

variable {tree other : Tree} {directory : Path} {route names : Route} {name : Text}

/-! ## What the paths lead to -/

/-- The test files below a directory do not depend on the order in which the nodes are listed. -/
theorem testFilesBelow_eq_of_perm
    (wellFormed : tree.WellFormed)
    (permuted : other.nodes.Perm tree.nodes)
    (sameStart : other.workingDirectory = tree.workingDirectory)
    (directory : Path) :
    testFilesBelow other directory = testFilesBelow tree directory := by
  rw [testFilesBelow, testFilesBelow,
    Tree.locate_congr (wellFormed.node?_eq_of_perm permuted) sameStart]
  split
  · rfl
  next route _ => rw [walk_eq_of_perm wellFormed permuted]

/-- Paths that lead to different places, which are just the wanted ones. -/
structure LeadOnceTo (tree : Tree) (files : List Path) (IsWanted : Route → Prop) : Prop where
  different : (files.map tree.locate).Nodup
  sound : ∀ file ∈ files, ∃ target, tree.locate file = .ok target ∧ IsWanted target
  complete : ∀ target, IsWanted target → ∃ file ∈ files, tree.locate file = .ok target

/-- A route leads to a test file below a route. -/
def IsTestFileBelow (tree : Tree) (route target : Route) : Prop :=
  ∃ directories name,
    target = route ++ directories ++ [name] ∧ IsTestFile tree route directories name

theorem locate_descend_of_mem
    (wellFormed : tree.WellFormed)
    (located : tree.locate directory = .ok route)
    (found : names ∈ walk tree route) :
    tree.locate (directory.descend names) = .ok (route ++ names) := by
  obtain ⟨directories, name, rfl, isTest⟩ := (mem_walk_iff wellFormed).mp found
  obtain ⟨node, isNode, _⟩ := isTest.isFile
  rw [List.append_assoc] at isNode
  exact wellFormed.locate_descend located isNode

theorem leadOnceTo_testFilesBelow
    (wellFormed : tree.WellFormed)
    (located : tree.locate directory = .ok route) :
    LeadOnceTo tree (testFilesBelow tree directory) (IsTestFileBelow tree route) := by
  rw [testFilesBelow_eq_map located]
  have leads := fun {names} => @locate_descend_of_mem tree directory route names wellFormed located
  constructor
  case different =>
    rw [List.map_map]
    have differ := nodup_walk wellFormed.different route
    refine differ.map_on fun first isFirst second isSecond same => ?_
    rw [Function.comp, Function.comp, leads isFirst, leads isSecond] at same
    exact List.append_cancel_left (Except.ok.inj same)
  case sound =>
    intro file member
    obtain ⟨names, found, rfl⟩ := List.mem_map.mp member
    obtain ⟨directories, name, rfl, isTest⟩ := (mem_walk_iff wellFormed).mp found
    exact ⟨_, leads found, directories, name, (List.append_assoc _ _ _).symm, isTest⟩
  case complete =>
    rintro target ⟨directories, name, rfl, isTest⟩
    have found := (mem_walk_iff wellFormed).mpr ⟨directories, name, rfl, isTest⟩
    refine ⟨_, List.mem_map_of_mem found, ?_⟩
    rw [leads found, List.append_assoc]

theorem LeadOnceTo.flatMap
    {directories : List Path}
    {files : Path → List Path}
    {IsWanted : Path → Route → Prop}
    (each : ∀ directory ∈ directories, LeadOnceTo tree (files directory) (IsWanted directory))
    (apart : directories.Pairwise fun first second =>
      ∀ target, IsWanted first target → ¬ IsWanted second target) :
    LeadOnceTo tree (directories.flatMap files)
      fun target => ∃ directory ∈ directories, IsWanted directory target := by
  constructor
  case different =>
    rw [List.map_flatMap]
    refine List.nodup_flatMap.mpr ⟨fun directory member => (each directory member).different, ?_⟩
    refine apart.imp_of_mem fun isFirst isSecond differ located inFirst inSecond => ?_
    obtain ⟨first, firstMember, rfl⟩ := List.mem_map.mp inFirst
    obtain ⟨second, secondMember, same⟩ := List.mem_map.mp inSecond
    obtain ⟨target, leads, isWanted⟩ := (each _ isFirst).sound first firstMember
    obtain ⟨other, otherLeads, otherWanted⟩ := (each _ isSecond).sound second secondMember
    rw [otherLeads, leads] at same
    cases same
    exact differ target isWanted otherWanted
  case sound =>
    intro file member
    obtain ⟨directory, inDirectories, inDirectory⟩ := List.mem_flatMap.mp member
    obtain ⟨target, leads, isWanted⟩ := (each directory inDirectories).sound file inDirectory
    exact ⟨target, leads, directory, inDirectories, isWanted⟩
  case complete =>
    rintro target ⟨directory, inDirectories, isWanted⟩
    obtain ⟨file, inDirectory, leads⟩ := (each directory inDirectories).complete target isWanted
    exact ⟨file, List.mem_flatMap_of_mem inDirectories inDirectory, leads⟩

/-! ## In the conventional directories of a project -/

section Conventional

variable {project : Project} {directories : List Path}

/-- The test directories of a project are known if every conventional place can be checked. -/
theorem testDirectories_eq_ok_iff :
    testDirectories project tree = .ok directories ↔
      (∀ name ∈ conventionalDirectories, ∃ isThere,
        tree.isDirectory (project.resolve name) = .ok isThere) ∧
        directories = distinctBy (fun directory => (tree.locate directory).toOption)
          ((conventionalDirectories.map project.resolve).filter fun directory =>
            (tree.isDirectory directory).toOption == some true) := by
  rw [testDirectories, Outcome.bind_eq_ok_iff]
  simp only [Search.filterM_eq_ok_iff, List.forall_mem_map]
  constructor
  · rintro ⟨_, ⟨areChecked, rfl⟩, ⟨⟩⟩
    exact ⟨areChecked, rfl⟩
  · rintro ⟨areChecked, rfl⟩
    exact ⟨_, ⟨areChecked, rfl⟩, rfl⟩

theorem testDirectories_eq_error_iff
    {fault : Tree.Fault} :
    testDirectories project tree = .error fault ↔
      ∃ before name after, conventionalDirectories = before ++ name :: after ∧
        (∀ earlier ∈ before, ∃ isThere,
          tree.isDirectory (project.resolve earlier) = .ok isThere) ∧
        tree.isDirectory (project.resolve name) = .error fault := by
  rw [testDirectories, Outcome.bind_pure_eq_error_iff, Search.filterM_eq_error_iff]
  exact Search.exists_split_map_iff

theorem conventional_of_mem_testDirectories
    (found : testDirectories project tree = .ok directories)
    (member : directory ∈ directories) :
    ∃ name ∈ conventionalDirectories,
      directory = project.resolve name ∧ tree.isDirectory directory = .ok true := by
  obtain ⟨_, rfl⟩ := testDirectories_eq_ok_iff.mp found
  obtain ⟨isConventional, isThere⟩ := List.mem_filter.mp (mem_of_mem_distinctBy member)
  obtain ⟨name, isName, rfl⟩ := List.mem_map.mp isConventional
  exact ⟨name, isName, rfl, Outcome.toOption_eq_some_iff.mp (beq_iff_eq.mp isThere)⟩

/-- Each conventional directory that a project has is searched on one of its paths. -/
theorem exists_mem_testDirectories
    (found : testDirectories project tree = .ok directories)
    (conventional : name ∈ conventionalDirectories)
    (isThere : tree.isDirectory (project.resolve name) = .ok true) :
    ∃ chosen ∈ directories,
      (tree.locate chosen).toOption = (tree.locate (project.resolve name)).toOption := by
  obtain ⟨_, rfl⟩ := testDirectories_eq_ok_iff.mp found
  refine exists_mem_distinctBy (List.mem_filter.mpr ⟨List.mem_map_of_mem conventional, ?_⟩)
  rw [isThere]
  rfl

theorem ofText_conventional :
    ∀ name ∈ conventionalDirectories,
      Path.ofText name = { anchor := .current, names := [name] } ∧ name ≠ Path.above := by
  decide

/-- The conventional directories stand in the root of the project. -/
theorem locate_conventional
    (conventional : name ∈ conventionalDirectories)
    (located : tree.locate (project.resolve name) = .ok route) :
    ∃ reached, tree.follow (tree.start project.root) project.root.names = .ok reached ∧
      route = reached ++ [name] := by
  obtain ⟨isPath, notAbove⟩ := ofText_conventional name conventional
  have leads := (Tree.locate_eq_ok_iff.mp located).2
  rw [Project.resolve, isPath] at leads
  change tree.follow (tree.start project.root) (project.root.names ++ [name]) = .ok route at leads
  rw [Tree.follow_append] at leads
  obtain ⟨reached, reaches, goesOn⟩ := Outcome.bind_eq_ok_iff.mp leads
  obtain ⟨_, advances, isEnd⟩ := Tree.follow_cons_eq_ok_iff.mp goesOn
  obtain ⟨_, _, isNext, _⟩ := Tree.advance_eq_ok_iff.mp advances
  rw [Path.follow, if_neg notAbove] at isNext
  exact ⟨reached, reaches, (Except.ok.inj isEnd).symm.trans isNext⟩

/-- A test file is below a directory of the project that the path leads to. -/
def IsTestFileOf (tree : Tree) (directory : Path) (target : Route) : Prop :=
  ∃ route, tree.locate directory = .ok route ∧ IsTestFileBelow tree route target

theorem IsTestFileOf.isDirectory
    (wellFormed : tree.WellFormed)
    {target : Route}
    (isOf : IsTestFileOf tree directory target) :
    tree.isDirectory directory = .ok true := by
  obtain ⟨route, located, directories, name, rfl, isTest⟩ := isOf
  have isNode := isTest.node?_eq wellFormed (List.prefix_append route directories)
  exact Tree.isDirectory_eq_ok_true_iff.mpr ⟨route, _, located, isNode, rfl⟩

theorem leadOnceTo_testDirectories
    (wellFormed : tree.WellFormed)
    (found : testDirectories project tree = .ok directories) :
    LeadOnceTo tree (directories.flatMap (testFilesBelow tree))
      fun target => ∃ directory ∈ directories, IsTestFileOf tree directory target := by
  apply LeadOnceTo.flatMap
  · intro directory member
    obtain ⟨_, _, _, isDirectory⟩ := conventional_of_mem_testDirectories found member
    obtain ⟨route, _, located, _⟩ := Tree.isDirectory_eq_ok_true_iff.mp isDirectory
    obtain ⟨different, sound, complete⟩ := leadOnceTo_testFilesBelow wellFormed located
    refine ⟨different, fun file isFile => ?_, ?_⟩
    · obtain ⟨target, leads, isBelow⟩ := sound file isFile
      exact ⟨target, leads, route, located, isBelow⟩
    · rintro target ⟨other, otherLocated, isBelow⟩
      rw [located] at otherLocated
      cases otherLocated
      exact complete target isBelow
  · have differ : directories.Pairwise fun first second =>
        (tree.locate first).toOption ≠ (tree.locate second).toOption := by
      rw [(testDirectories_eq_ok_iff.mp found).2]
      exact pairwise_distinctBy _
    refine differ.imp_of_mem fun isFirst isSecond differ target inFirst inSecond => ?_
    obtain ⟨firstName, firstConventional, rfl, _⟩ :=
      conventional_of_mem_testDirectories found isFirst
    obtain ⟨secondName, secondConventional, rfl, _⟩ :=
      conventional_of_mem_testDirectories found isSecond
    obtain ⟨first, firstLocated, firstDirectories, firstFile, isFirstTarget, _⟩ := inFirst
    obtain ⟨second, secondLocated, secondDirectories, secondFile, isSecondTarget, _⟩ := inSecond
    obtain ⟨reached, reaches, isFirstRoute⟩ := locate_conventional firstConventional firstLocated
    obtain ⟨again, reachesAgain, isSecondRoute⟩ :=
      locate_conventional secondConventional secondLocated
    rw [reaches] at reachesAgain
    cases reachesAgain
    -- Both directories are one name behind the root, so a common file makes them the same.
    have sameRoute : first = second := by
      rw [isFirstTarget, List.append_assoc, List.append_assoc] at isSecondTarget
      exact (List.append_inj isSecondTarget (by rw [isFirstRoute, isSecondRoute]; simp)).1
    rw [firstLocated, secondLocated, sameRoute] at differ
    exact differ rfl

/-- Leaving out the paths of one directory leaves out no test file. -/
theorem exists_mem_testDirectories_iff
    (wellFormed : tree.WellFormed)
    (found : testDirectories project tree = .ok directories)
    {target : Route} :
    (∃ directory ∈ directories, IsTestFileOf tree directory target) ↔
      ∃ name ∈ conventionalDirectories, IsTestFileOf tree (project.resolve name) target := by
  constructor
  · rintro ⟨directory, member, isOf⟩
    obtain ⟨name, conventional, rfl, _⟩ := conventional_of_mem_testDirectories found member
    exact ⟨name, conventional, isOf⟩
  · rintro ⟨name, conventional, isOf⟩
    obtain ⟨chosen, isChosen, samePlace⟩ :=
      exists_mem_testDirectories found conventional (isOf.isDirectory wellFormed)
    obtain ⟨route, located, isBelow⟩ := isOf
    rw [located] at samePlace
    exact ⟨chosen, isChosen, route, Outcome.toOption_eq_some_iff.mp samePlace, isBelow⟩

theorem eq_nil_iff_of_testDirectories
    (found : testDirectories project tree = .ok directories) :
    directories = [] ↔
      ∀ name ∈ conventionalDirectories, tree.isDirectory (project.resolve name) = .ok false := by
  constructor
  · rintro rfl name conventional
    obtain ⟨isThere, isChecked⟩ := (testDirectories_eq_ok_iff.mp found).1 name conventional
    cases isThere with
    | false => exact isChecked
    | true =>
        obtain ⟨_, ⟨⟩, _⟩ := exists_mem_testDirectories found conventional isChecked
  · intro noDirectory
    refine List.eq_nil_iff_forall_not_mem.mpr fun directory member => ?_
    obtain ⟨name, conventional, rfl, isDirectory⟩ :=
      conventional_of_mem_testDirectories found member
    rw [noDirectory name conventional] at isDirectory
    cases isDirectory

end Conventional

theorem value_discover_of_no_name
    (project : Project)
    (tree : Tree) :
    (discover project tree [] []).value =
      match testDirectories project tree with
      | .error fault => .error (.access fault)
      | .ok directories =>
          .ok (if directories = [] then none
            else some (directories.flatMap (testFilesBelow tree))) := by
  unfold discover
  rw [if_neg (not_not_intro rfl), if_neg (not_not_intro rfl)]
  split
  next isEmpty =>
    rw [isEmpty]
    rfl
  next directories notEmpty isFound =>
    rw [isFound]
    dsimp only
    rw [if_neg notEmpty]
    rfl
  next fault isFault =>
    rw [isFault]
    rfl

/-! ## The files that are found -/

/--
Below a directory exactly the test files outside skipped directories are found, each once: the
directory's own files in code-point order, then what is found below each of its directories in
code-point order, however its entries are listed. A search of all conventional directories of
a project finds exactly their test files, each once, unless it cannot be told of one of these
places whether it is a directory.
-/
theorem testFiles_complete
    (wellFormed : tree.WellFormed) :
    (∀ directory route, tree.locate directory = .ok route →
      LeadOnceTo tree (testFilesBelow tree directory) (IsTestFileBelow tree route) ∧
      (∀ entries, entries.Perm (tree.children route) →
        testFilesBelow tree directory =
          (Tree.sortedNames isOwnTestFile entries).map (fun name => directory.descend [name]) ++
            (Tree.sortedNames isSearchedDirectory entries).flatMap fun name =>
              testFilesBelow tree (directory.descend [name])) ∧
      ∀ other : Tree, other.nodes.Perm tree.nodes →
        other.workingDirectory = tree.workingDirectory →
        testFilesBelow other directory = testFilesBelow tree directory) ∧
    ∀ project,
      (∃ name ∈ conventionalDirectories, ∃ fault,
        tree.isDirectory (project.resolve name) = .error fault ∧
          (discover project tree [] []).value = .error (.access fault)) ∨
      (∀ name ∈ conventionalDirectories, ∃ isThere,
        tree.isDirectory (project.resolve name) = .ok isThere) ∧
      ∃ found, (discover project tree [] []).value = .ok found ∧
        (found = none ↔
          ∀ name ∈ conventionalDirectories,
            tree.isDirectory (project.resolve name) = .ok false) ∧
        ∀ files, found = some files →
          LeadOnceTo tree files fun target =>
            ∃ name ∈ conventionalDirectories,
              IsTestFileOf tree (project.resolve name) target := by
  constructor
  · intro directory route located
    refine ⟨leadOnceTo_testFilesBelow wellFormed located, fun entries listed => ?_,
      fun other permuted sameStart =>
        testFilesBelow_eq_of_perm wellFormed permuted sameStart directory⟩
    rw [testFilesBelow_eq_map located, walk_of_wellFormed wellFormed,
      Tree.sortedNames_eq_of_perm listed, Tree.sortedNames_eq_of_perm listed,
      List.map_append, List.map_map, List.map_flatMap]
    refine congrArg (_ ++ ·) (List.flatMap_congr fun name isSearched => ?_)
    obtain ⟨node, isEntry, _⟩ := Tree.mem_sortedNames_iff.mp isSearched
    have isNode := (wellFormed.node?_eq_some_iff (List.concat_ne_nil name route)).mpr
      (Tree.mem_children_iff.mp isEntry)
    rw [testFilesBelow_eq_map (wellFormed.locate_descend located isNode), List.map_map]
    refine List.map_congr_left fun names _ => ?_
    simp [Path.descend]
  · intro project
    rw [value_discover_of_no_name]
    cases found : testDirectories project tree with
    | error fault =>
        obtain ⟨before, name, after, places, _, isFault⟩ := testDirectories_eq_error_iff.mp found
        have conventional : name ∈ conventionalDirectories := by
          rw [places]
          exact List.mem_append_right before List.mem_cons_self
        exact Or.inl ⟨name, conventional, fault, isFault, rfl⟩
    | ok directories =>
        refine Or.inr ⟨(testDirectories_eq_ok_iff.mp found).1, _, rfl, ?_, ?_⟩
        · rw [← eq_nil_iff_of_testDirectories found]
          simp
        · intro files isFound
          split at isFound
          · cases isFound
          · cases isFound
            have leads := leadOnceTo_testDirectories wellFormed found
            simpa only [exists_mem_testDirectories_iff wellFormed found] using leads

/--
A file in a directory is found from the project, however the nodes are listed; a directory that
is closed is passed over.
-/
theorem testFiles_complete_of_project :
    let project : Project := { root := .ofText "/p" }
    let tree : Tree := {
      nodes := [
        (["p", "tests", "b", "a_test.go"], .file []),
        (["p", "tests", "test_b.py"], .closedFile),
        (["p"], .directory),
        (["p", "tests", "b"], .directory),
        (["p", "tests", "c"], .closedDirectory),
        (["p", "tests", "dist"], .directory),
        (["p", "tests", "dist", "test_c.py"], .file []),
        (["p", "spec"], .directory),
        (["p", "tests"], .directory)]
      workingDirectory := ["p"]
    }
    let tests : Path := .ofText "/p/tests"
    tree.WellFormed ∧
      testFilesBelow { tree with nodes := tree.nodes.reverse } tests = testFilesBelow tree tests ∧
      ∃ files, (discover project tree [] []).value = .ok (some files) ∧
        (files.map tree.locate).Nodup ∧
        ∃ file ∈ files, tree.locate file = .ok ["p", "tests", "b", "a_test.go"] := by
  intro project tree tests
  have wellFormed : tree.WellFormed :=
    ⟨by decide +kernel, by decide, by decide +kernel, by decide +kernel⟩
  obtain ⟨belowDirectory, inProject⟩ := testFiles_complete wellFormed
  have located : tree.locate tests = .ok ["p", "tests"] := by rfl
  have sameFiles := (belowDirectory tests _ located).2.2 { tree with nodes := tree.nodes.reverse }
    (List.reverse_perm _) rfl
  have areChecked : ∀ name ∈ conventionalDirectories, ∃ isThere,
      tree.isDirectory (project.resolve name) = .ok isThere := by
    decide +kernel
  obtain ⟨name, conventional, fault, isFault, _⟩ | ⟨_, found, isFound, isNone, leads⟩ :=
    inProject project
  · obtain ⟨isThere, isChecked⟩ := areChecked name conventional
    rw [isChecked] at isFault
    cases isFault
  have hasTests : tree.isDirectory (project.resolve "tests") = .ok true := by decide +kernel
  have isSome : found ≠ none := by
    intro noFiles
    rw [isNone.mp noFiles "tests" (by decide)] at hasTests
    cases hasTests
  obtain ⟨files, rfl⟩ := Option.ne_none_iff_exists'.mp isSome
  have isTest : IsTestFileOf tree (project.resolve "tests") ["p", "tests", "b", "a_test.go"] :=
    ⟨["p", "tests"], rfl, ["b"], "a_test.go", rfl,
      ⟨.file [], by decide +kernel⟩, by decide +kernel, by decide⟩
  exact ⟨wellFormed, sameFiles, files, isFound, (leads files rfl).different,
    (leads files rfl).complete _ ⟨"tests", by decide, isTest⟩⟩

end TestAudit.Discovery
