import TestAudit.Command.Moment
import TestAudit.Command.Run
import Std.Time.DateTime

namespace TestAudit.Main

/-!
# The program

Reads the files at which a command looks, runs the command, and writes the files
that it changed. The first word names the command.
-/

/-- A route as the system writes it. -/
def systemPath (route : Route) : String :=
  String.ofList { Path.root with names := route : Path }.toText

/-- What a computation gives, unless it fails. -/
def attempt {α : Type} (computation : IO α) : IO (Option α) := do
  try
    return some (← computation)
  catch _ =>
    return none

/-- The nodes at a route and below it; directories that are never searched are not looked into. -/
partial def nodesBelow (route : Route) : IO (List (Route × Node)) := do
  match ← attempt (IO.FS.realPath (systemPath route)) with
  | none => return []
  | some path =>
      if ← path.isDir then
        match ← attempt path.readDir with
        | none => return [(route, .closedDirectory)]
        | some entries =>
            let below ← entries.toList.mapM fun entry => do
              let name := entry.fileName.toList
              if Discovery.skippedDirectories.contains name then
                return []
              else
                nodesBelow (route ++ [name])
            return (route, .directory) :: below.flatten
      else
        match ← attempt (IO.FS.readBinFile path) with
        | none => return [(route, .closedFile)]
        | some content => return [(route, .file content.toList)]

/-- The directory at a route, if there is one. -/
def directoryAt? (route : Route) : IO (Option (Route × Node)) := do
  match ← attempt (IO.FS.realPath (systemPath route)) with
  | none => return none
  | some path =>
      if ← path.isDir then
        match ← attempt path.readDir with
        | none => return some (route, .closedDirectory)
        | some _ => return some (route, .directory)
      else
        return none

/-- The directories above a path. -/
def directoriesAbove (path : Path) : IO (List (Route × Node)) := do
  let names := path.parent.names
  let routes := (List.range (names.length + 1)).map fun count => Path.settle (names.take count)
  routes.filterMapM directoryAt?

/-- The tree with what is at a path, below it, and above it. -/
def withPath (tree : Tree) (path : Path) : IO Tree := do
  let nodes := (← directoriesAbove path) ++ (← nodesBelow (Path.settle path.names))
  let named := nodes.filter fun (route, _) => route ≠ []
  return named.foldl (fun tree (route, node) => tree.put route node) tree

/-- Writes a node; what is closed cannot be written. -/
def writeNode : Route × Node → IO Unit
  | (route, .directory) => IO.FS.createDirAll (systemPath route)
  | (route, .file content) => IO.FS.writeBinFile (systemPath route) (ByteArray.mk content.toArray)
  | (_, .closedDirectory) | (_, .closedFile) => return

/-- Writes the nodes of a tree that are not in the tree as it was. -/
def writeChanges (before after : Tree) : IO Unit :=
  (after.nodes.filter fun (route, node) => before.nodes.lookup route ≠ some node).forM writeNode

/-- What a command finds, without any files. -/
def emptyEnvironment : IO Command.Environment := do
  let directory ← IO.currentDir
  let projectRoot ← IO.getEnv "TESTWARDEN_PROJECT_ROOT"
  let now ← Std.Time.Timestamp.now
  let seconds := now.toSecondsSinceUnixEpoch.val.toNat
  return {
    tree := { nodes := [], workingDirectory := (Path.ofText directory.toString.toList).names }
    projectRoot := (projectRoot.getD "").toList
    logMoment := Moment.toText seconds
    consoleMoment := Moment.toText seconds
    reportMoment := Moment.reportText seconds
  }

/-- Prints what a command prints, and gives its exit code. -/
def finish : Except Command.Abort Outcome → IO UInt32
  | .ok outcome => do
      IO.print (String.ofList outcome.stdout)
      IO.eprint (String.ofList outcome.stderr)
      return outcome.exitCode.toUInt32
  | .error abort => do
      IO.eprintln (String.ofList abort.message)
      return 1

/-- Runs a command on the files of the system. -/
def runProgram (program : Command.Program) (words : List Text) : IO UInt32 := do
  let empty ← emptyEnvironment
  let paths := Command.watchedPaths program.grammar empty words
  let tree ← paths.foldlM withPath empty.tree
  let conclusion := program.run { empty with tree } words
  writeChanges tree conclusion.tree
  finish conclusion.result

end TestAudit.Main

/-- The command that the first word names. -/
def main (words : List String) : IO UInt32 := do
  match words with
  | name :: rest =>
      match TestAudit.Command.programs.lookup name.toList with
      | some program => TestAudit.Main.runProgram program (rest.map String.toList)
      | none =>
          IO.eprintln "the commands are lint, lint-hook and report"
          return 2
  | [] =>
      IO.eprintln "the commands are lint, lint-hook and report"
      return 2
