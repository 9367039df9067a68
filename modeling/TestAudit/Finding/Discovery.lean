import TestAudit.Distinct
import TestAudit.Files.Project
import TestAudit.Log
import TestAudit.Source.TestName

namespace TestAudit.Discovery

/-!
# Finding test files

A named file is taken as it is. Otherwise a walk goes through a named directory, or
through every conventional test directory of the project. In each directory it
collects the test files and then goes on into the subdirectories, each group in
code-point order; directories of dependencies and build products are left out.
-/

/-- The name under which discovery writes to the log. -/
def logSource : Text :=
  "testwarden.integrity.discovery"

/-- The directories of a project that hold tests by convention. -/
def conventionalDirectories : List Text :=
  ["tests", "test", "__tests__", "spec", "Tests"]

/-- The names of directories that are not searched. -/
def skippedDirectories : List Text :=
  [ "node_modules", ".git", "bin", "obj", "__pycache__", ".venv", "venv", "dist", "build" ]

/-- Why no files can be found: what was named is not there, or cannot be looked at. -/
inductive Fault where
  | fileMissing (path : Path)
  | directoryMissing (path : Path)
  | access (fault : Tree.Fault)
  deriving Repr, DecidableEq

namespace Fault

/-- The message for a fault. -/
def message : Fault → Text
  | .fileMissing path => "File not found: " ++ path.toText
  | .directoryMissing path => "Directory not found: " ++ path.toText
  | .access fault => fault.message

end Fault

/-! ## Below one directory -/

/-- Whether an entry of a directory is a test file. -/
def isOwnTestFile : Text × Node → Bool
  | (name, node) => node.isFile && isTestFileName name

/-- Whether an entry of a directory is a directory that is searched. -/
def isSearchedDirectory : Text × Node → Bool
  | (name, node) => node.isDirectory && !skippedDirectories.contains name

/--
The names that lead from a route to the test files below it: those of the directory's own
files, and then what a walk through each of its directories finds. A directory that is
closed is passed over.
-/
def walk (tree : Tree) (route : Route) : List Route :=
  match tree.enter route with
  | .error _ => []
  | .ok () =>
      (Tree.sortedNames isOwnTestFile (tree.children route)).map ([·]) ++
        (Tree.sortedNames isSearchedDirectory (tree.children route)).attach.flatMap
          fun ⟨name, _⟩ => (walk tree (route ++ [name])).map (name :: ·)
termination_by tree.depth - route.length
decreasing_by
  rename_i isSearched
  -- Below a directory the routes get longer, and none is longer than the tree is deep.
  obtain ⟨entry, isEntry, _⟩ := List.mem_map.mp (List.mem_mergeSort.mp isSearched)
  have deeper := Tree.length_lt_depth_of_mem_children (List.mem_filter.mp isEntry).1
  rw [List.length_append, List.length_singleton]
  omega

/-- The test files below a directory, each on a path that begins with the directory's. -/
def testFilesBelow (tree : Tree) (directory : Path) : List Path :=
  match tree.locate directory with
  | .error _ => []
  | .ok route => (walk tree route).map directory.descend

/-! ## In a project -/

/--
The conventional test directories that a project has, each on the first of the paths
that lead to it.
-/
def testDirectories (project : Project) (tree : Tree) : Except Tree.Fault (List Path) := do
  let directories ← (conventionalDirectories.map project.resolve).filterM tree.isDirectory
  return distinctBy (fun directory => (tree.locate directory).toOption) directories

/-- What the log says about a directory that was searched. -/
def countLine (directory : Path) (files : List Path) : LogLine where
  source := logSource
  level := .debug
  message := Text.ofNat files.length ++ " test file(s) under " ++ directory.toText

/-- The test files below some directories, in the order of the directories. -/
def testFilesIn (tree : Tree) (directories : List Path) : Logged (List Path) where
  log := directories.map fun directory => countLine directory (testFilesBelow tree directory)
  value := directories.flatMap (testFilesBelow tree)

/--
The files to look at, or nothing if the project has no test directory. An empty
text names neither a file nor a directory.
-/
def discover
    (project : Project)
    (tree : Tree)
    (file directory : Text) :
    Logged (Except Fault (Option (List Path))) :=
  if file ≠ [] then
    let path := project.resolve file
    match tree.isFile path with
    | .ok true => pure (.ok (some [path]))
    | .ok false => pure (.error (.fileMissing path))
    | .error fault => pure (.error (.access fault))
  else if directory ≠ [] then
    let path := project.resolve directory
    match tree.isDirectory path with
    | .ok true => (fun files => .ok (some files)) <$> testFilesIn tree [path]
    | .ok false => pure (.error (.directoryMissing path))
    | .error fault => pure (.error (.access fault))
  else
    match testDirectories project tree with
    | .ok [] => pure (.ok none)
    | .ok directories => (fun files => .ok (some files)) <$> testFilesIn tree directories
    | .error fault => pure (.error (.access fault))

end TestAudit.Discovery
