import TestAudit.Files.Tree

namespace TestAudit.Tree

/-!
# Changing a file tree

Every operation that changes a tree gives the new tree, or the fault that stopped
it. Creating a directory together with the missing ones above it can stop half
way; the directories created until then stay, so that operation gives both.
-/

/-- The nodes with one node set: a known route keeps its place. -/
def setNode (route : Route) (node : Node) : List (Route × Node) → List (Route × Node)
  | [] => [(route, node)]
  | (other, old) :: nodes =>
      if other = route then
        (route, node) :: nodes
      else
        (other, old) :: setNode route node nodes

/-- The tree with one node set. -/
def put (tree : Tree) (route : Route) (node : Node) : Tree :=
  { tree with nodes := setNode route node tree.nodes }

/--
The route that a new node at a path has: its directory is there, and the route
itself is either taken or free.
-/
def entryRoute (tree : Tree) (path : Path) : Except Reason Route :=
  if path.canLead then
    match path.names.getLast? with
    | none => .ok (tree.start path)
    | some name =>
        match tree.locate path.parent with
        | .error reason => .error reason
        | .ok directory => tree.entry directory name
  else
    .error .nullCharacter

/-- The tree in which the file at a path holds what a function makes of its content so far. -/
def update (tree : Tree) (path : Path) (change : List UInt8 → List UInt8) : Except Fault Tree :=
  match tree.entryRoute path with
  | .error reason => .error { reason, path }
  | .ok route =>
      match tree.node? route with
      | some .directory | some .closedDirectory => .error { reason := .isDirectory, path }
      | some .closedFile => .error { reason := .denied, path }
      | some (.file content) => .ok (tree.put route (.file (change content)))
      | none => .ok (tree.put route (.file (change [])))

/-- The tree in which the file at a path holds the given bytes. -/
def write (tree : Tree) (path : Path) (content : List UInt8) : Except Fault Tree :=
  tree.update path fun _ => content

/-- The tree in which the given bytes stand at the end of the file at a path. -/
def append (tree : Tree) (path : Path) (content : List UInt8) : Except Fault Tree :=
  tree.update path (· ++ content)

/-- The tree with a new directory at a path. -/
def makeDirectory (tree : Tree) (path : Path) : Except Fault Tree :=
  match tree.entryRoute path with
  | .error reason => .error { reason, path }
  | .ok route =>
      match tree.node? route with
      | some _ => .error { reason := .exists, path }
      | none => .ok (tree.put route .directory)

/-- A directory that is there already is no fault of creating it. -/
def orExisting (tree : Tree) (path : Path) : Except Fault Tree → Tree × Except Fault Unit
  | .ok changed => (changed, .ok ())
  | .error fault =>
      match tree.isDirectory path with
      | .ok true => (tree, .ok ())
      | .ok false => (tree, .error fault)
      | .error unseen => (tree, .error unseen)

/--
Creates the directory with the given names, the last one first, and the missing
ones above it.
-/
def ensureNames (tree : Tree) (anchor : Anchor) : List Text → Tree × Except Fault Unit
  | [] =>
      let path := { anchor, names := [] }
      tree.orExisting path (tree.makeDirectory path)
  | name :: outer =>
      let path := { anchor, names := (name :: outer).reverse }
      match tree.makeDirectory path with
      | .error { reason := .missing, .. } =>
          match tree.ensureNames anchor outer with
          | (changed, .ok ()) => changed.orExisting path (changed.makeDirectory path)
          | stopped => stopped
      | result => tree.orExisting path result

/-- Creates a directory and the missing ones above it, if it is not there. -/
def ensureDirectory (tree : Tree) (path : Path) : Tree × Except Fault Unit :=
  tree.ensureNames path.anchor path.names.reverse

/-- The tree without a node and all that is below it. -/
def remove (tree : Tree) (path : Path) : Except Fault Tree :=
  match tree.locate path with
  | .error reason => .error { reason, path }
  | .ok route =>
      .ok { tree with nodes := tree.nodes.filter fun (other, _) => !route.isPrefixOf other }

end TestAudit.Tree
