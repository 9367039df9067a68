import TestAudit.Files.Path
import TestAudit.Text.Lines
import TestAudit.Text.Utf8

namespace TestAudit

/-!
# File trees

A tree holds the files and directories that a program sees, each under its route:
the names that lead to it from the root directory, which is always there. Paths
are followed name by name, so two dots lead above the directory that was reached,
and a way through something that is no directory is a fault.

A file can be read and written, or it is closed and can be neither; a directory can
be listed and entered, or it is closed and nothing below it is seen. Names are texts
of at most 255 bytes, so a name of bytes that are no text is not represented. There
are no links, and a path may be as long as it likes.
-/

/-- The names on the way from the root directory to a node. -/
abbrev Route := List Text

/-- What a route leads to. -/
inductive Node where
  | directory
  /-- A directory that can be neither listed nor entered. -/
  | closedDirectory
  | file (content : List UInt8)
  /-- A file that can be neither read nor written. -/
  | closedFile
  deriving Repr, DecidableEq

namespace Node

/-- Whether a node is a file. -/
def isFile : Node → Bool
  | .file _ | .closedFile => true
  | .directory | .closedDirectory => false

/-- Whether a node is a directory. -/
def isDirectory : Node → Bool
  | .directory | .closedDirectory => true
  | .file _ | .closedFile => false

end Node

/-- The nodes that a program sees, and the directory in which it runs. -/
structure Tree where
  nodes : List (Route × Node)
  workingDirectory : Route
  deriving Repr, DecidableEq

namespace Tree

/-! ## Faults -/

/-- Why an operation on a path fails. -/
inductive Reason where
  | missing
  | denied
  | exists
  | notDirectory
  | isDirectory
  | nameTooLong
  /-- The path has a null character in it. -/
  | nullCharacter
  deriving Repr, DecidableEq

namespace Reason

/-- The number of a reason in messages; a path that is no path at all has none. -/
def number? : Reason → Option Nat
  | .missing => some 2
  | .denied => some 13
  | .exists => some 17
  | .notDirectory => some 20
  | .isDirectory => some 21
  | .nameTooLong => some 36
  | .nullCharacter => none

/-- The words for a reason. -/
def message : Reason → Text
  | .missing => "No such file or directory"
  | .denied => "Permission denied"
  | .exists => "File exists"
  | .notDirectory => "Not a directory"
  | .isDirectory => "Is a directory"
  | .nameTooLong => "File name too long"
  | .nullCharacter => "embedded null byte"

/-- Whether a path that cannot be followed for a reason is taken to lead to nothing. -/
def isAbsence : Reason → Bool
  | .missing | .notDirectory | .nullCharacter => true
  | .denied | .exists | .isDirectory | .nameTooLong => false

end Reason

/-- A failed operation: the reason, and the path it was asked for. -/
structure Fault where
  reason : Reason
  path : Path
  deriving Repr, DecidableEq

/-- The message for a failed operation. -/
def Fault.message (fault : Fault) : Text :=
  match fault.reason.number? with
  | some number =>
      "[Errno " ++ Text.ofNat number ++ "] " ++ fault.reason.message ++ ": " ++
        fault.path.toText.quoted
  | none => fault.reason.message

/-! ## Following paths -/

/-- The node at a route. -/
def node? (tree : Tree) (route : Route) : Option Node :=
  if route = [] then some .directory else tree.nodes.lookup route

/-- Goes into the directory at a route, if there is one that can be entered. -/
def enter (tree : Tree) (route : Route) : Except Reason Unit :=
  match tree.node? route with
  | some .directory => .ok ()
  | some .closedDirectory => .error .denied
  | some (.file _) | some .closedFile => .error .notDirectory
  | none => .error .missing

/-- The route that a name has in the directory at a route, whether it leads to a node or not. -/
def entry (tree : Tree) (route : Route) (name : Text) : Except Reason Route := do
  tree.enter route
  if Path.fits name then .ok (Path.follow route name) else .error .nameTooLong

/-- The route of the node that a name leads to from a route. -/
def advance (tree : Tree) (route : Route) (name : Text) : Except Reason Route := do
  let next ← tree.entry route name
  if (tree.node? next).isSome then .ok next else .error .missing

/-- The route that names lead to from a route. -/
def follow (tree : Tree) : Route → List Text → Except Reason Route
  | route, [] => .ok route
  | route, name :: names => do
      let next ← tree.advance route name
      tree.follow next names

/-- The route at which a path begins. -/
def start (tree : Tree) (path : Path) : Route :=
  if path.isAbsolute then [] else tree.workingDirectory

/-- The route of the node that a path leads to. -/
def locate (tree : Tree) (path : Path) : Except Reason Route :=
  if path.canLead then tree.follow (tree.start path) path.names else .error .nullCharacter

/--
The node that a path leads to, if it leads to one. Where it cannot be told whether it does,
because a directory on the way is closed or a name on it is too long, that is a fault.
-/
def look (tree : Tree) (path : Path) : Except Fault (Option Node) :=
  match tree.locate path with
  | .ok route => .ok (tree.node? route)
  | .error reason => if reason.isAbsence then .ok none else .error { reason, path }

/-- Whether a path leads to a file. -/
def isFile (tree : Tree) (path : Path) : Except Fault Bool :=
  (tree.look path).map (·.any Node.isFile)

/-- Whether a path leads to a directory. -/
def isDirectory (tree : Tree) (path : Path) : Except Fault Bool :=
  (tree.look path).map (·.any Node.isDirectory)

/-! ## Reading -/

/-- The bytes of the file that a path leads to. -/
def read (tree : Tree) (path : Path) : Except Fault (List UInt8) :=
  match tree.locate path with
  | .error reason => .error { reason, path }
  | .ok route =>
      match tree.node? route with
      | some (.file content) => .ok content
      | some .directory => .error { reason := .isDirectory, path }
      | some .closedFile | some .closedDirectory => .error { reason := .denied, path }
      | none => .error { reason := .missing, path }

/-- Why a text file cannot be read. -/
inductive TextFault where
  | access (fault : Fault)
  | encoding (fault : Text.Utf8.Fault)
  deriving Repr, DecidableEq

/-- The message for a text file that cannot be read. -/
def TextFault.message : TextFault → Text
  | .access fault => fault.message
  | .encoding fault => fault.message

/-- The text of a file, whose line ends become line feeds. -/
def readText (tree : Tree) (path : Path) : Except TextFault Text := do
  let content ← (tree.read path).mapError .access
  let text ← (Text.Utf8.decode content).mapError .encoding
  return text.unifyNewlines

/-- The text of a file, with a replacement character for every fault of its encoding. -/
def readLenient (tree : Tree) (path : Path) : Except Fault Text := do
  let content ← tree.read path
  return (Text.Utf8.decodeLenient content).unifyNewlines

/-! ## Listing -/

/-- The nodes below a route, each with the names that lead from there to it. -/
def below (tree : Tree) (route : Route) : List (Route × Node) :=
  tree.nodes.filterMap fun (full, node) =>
    match route.isPrefixOf? full with
    | some (name :: names) => some (name :: names, node)
    | _ => none

/-- The nodes directly below a route, by name. -/
def children (tree : Tree) (route : Route) : List (Text × Node) :=
  (tree.below route).filterMap fun
    | ([name], node) => some (name, node)
    | _ => none

/-- The number of names on the longest route to a node. -/
def depth (tree : Tree) : Nat :=
  (tree.nodes.map fun (route, _) => route.length).foldr max 0

theorem length_le_depth
    {tree : Tree}
    {route : Route}
    {node : Node}
    (member : (route, node) ∈ tree.nodes) :
    route.length ≤ tree.depth := by
  unfold depth
  generalize tree.nodes = nodes at member
  induction nodes with
  | nil => cases member
  | cons first others inductionHypothesis =>
      rw [List.map_cons, List.foldr_cons]
      rcases List.mem_cons.mp member with rfl | behind
      · exact Nat.le_max_left _ _
      · exact Nat.le_trans (inductionHypothesis behind) (Nat.le_max_right _ _)

theorem length_of_isPrefixOf?
    {route full names : Route}
    (isBelow : route.isPrefixOf? full = some names) :
    full.length = route.length + names.length := by
  induction route generalizing full with
  | nil =>
      cases isBelow
      exact (Nat.zero_add _).symm
  | cons name others inductionHypothesis =>
      cases full with
      | nil => cases isBelow
      | cons first rest =>
          change (if name == first then others.isPrefixOf? rest else none) = some names at isBelow
          split at isBelow
          next =>
            rw [List.length_cons, List.length_cons, inductionHypothesis isBelow,
              Nat.add_right_comm]
          next => cases isBelow

/-- What has entries is not as deep as the tree. -/
theorem length_lt_depth_of_mem_children
    {tree : Tree}
    {route : Route}
    {entry : Text × Node}
    (member : entry ∈ tree.children route) :
    route.length < tree.depth := by
  obtain ⟨⟨names, node⟩, isBelow, isChild⟩ := List.mem_filterMap.mp member
  obtain ⟨⟨full, found⟩, isNode, isBelow⟩ := List.mem_filterMap.mp isBelow
  dsimp only at isBelow
  split at isBelow
  next isPrefix =>
    have longer := length_of_isPrefixOf? isPrefix
    have notDeeper := length_le_depth isNode
    rw [List.length_cons] at longer
    omega
  next => cases isBelow

/-- The names of the entries of a kind, in code-point order. -/
def sortedNames (isKind : Text × Node → Bool) (entries : List (Text × Node)) : List Text :=
  ((entries.filter isKind).map Prod.fst).mergeSort Text.le

/-- The entries of the directory that a path leads to, by name. -/
def entries (tree : Tree) (path : Path) : Except Fault (List (Text × Node)) :=
  match tree.locate path with
  | .error reason => .error { reason, path }
  | .ok route =>
      match tree.enter route with
      | .error reason => .error { reason, path }
      | .ok () => .ok (tree.children route)

/-- The path of the directory in which the program runs. -/
def workingPath (tree : Tree) : Path where
  anchor := .root
  names := tree.workingDirectory

end Tree

end TestAudit
