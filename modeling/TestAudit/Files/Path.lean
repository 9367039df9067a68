import TestAudit.Text.Utf8

namespace TestAudit

/-!
# Paths

A path is an anchor and the names that lead from there to a file or directory.
Reading a path drops empty names and single dots. Two dots stay: what they lead
to is settled by `settled`, which needs to know the current directory only for a
path without an anchor. A file system takes names of at most 255 bytes and paths
without a null character.
-/

/-- Where a path begins: at the current directory, or at the root in one of two spellings. -/
inductive Anchor where
  | current
  | root
  | doubleRoot
  deriving Repr, DecidableEq

namespace Anchor

/-- The slashes that an anchor is written with. -/
def toText : Anchor → Text
  | .current => ""
  | .root => "/"
  | .doubleRoot => "//"

/-- The anchor of a written path: exactly two slashes are an anchor of their own. -/
def ofText : Text → Anchor
  | '/' :: '/' :: '/' :: _ => .root
  | '/' :: '/' :: _ => .doubleRoot
  | '/' :: _ => .root
  | _ => .current

end Anchor

/-- A path. -/
structure Path where
  anchor : Anchor
  names : List Text
  deriving Repr, DecidableEq

namespace Path

/-- The name that leads to the directory above. -/
def above : Text :=
  ".."

/-- The name that leads nowhere else. -/
def here : Text :=
  "."

/-- The path that a text denotes. -/
def ofText (text : Text) : Path where
  anchor := .ofText text
  names := (text.splitOn '/').filter fun name => name ≠ [] && name ≠ here

/-- A path as it is written. -/
def toText (path : Path) : Text :=
  match path.anchor, path.names with
  | .current, [] => here
  | anchor, names => anchor.toText ++ Text.joinWith ['/'] names

/-- The path of the root directory. -/
def root : Path where
  anchor := .root
  names := []

/-- Whether a path does not depend on the current directory. -/
def isAbsolute (path : Path) : Bool :=
  path.anchor ≠ .current

/-- A path taken from a base: an absolute path stands for itself. -/
def join (base path : Path) : Path :=
  if path.isAbsolute then path else { base with names := base.names ++ path.names }

/-- The path that leads on by the given names. -/
def descend (base : Path) (names : List Text) : Path :=
  { base with names := base.names ++ names }

/-- The last name of a path; the root has none. -/
def name (path : Path) : Text :=
  path.names.getLast?.getD []

/-- The path without its last name. -/
def parent (path : Path) : Path :=
  { path with names := path.names.dropLast }

/-- The ending of a name from its last dot on, if something stands on both sides of that dot. -/
def suffixOf (name : Text) : Text :=
  let ending := name.reverse.takeWhile (· != '.')
  let stem := (name.reverse.dropWhile (· != '.')).drop 1
  if ending = [] || stem = [] then [] else '.' :: ending.reverse

/-- The ending of the last name of a path. -/
def suffix (path : Path) : Text :=
  suffixOf path.name

/-- The bytes that a name may take up. -/
def longestName : Nat :=
  255

/-- Whether a name is short enough to be the name of a file or directory. -/
def fits (name : Text) : Bool :=
  (Text.Utf8.encode name).length ≤ longestName

/-- The way after one more name: two dots take the last name away. -/
def follow (names : List Text) (name : Text) : List Text :=
  if name = above then names.dropLast else names ++ [name]

/-- The way that names describe, without two dots. -/
def settle (names : List Text) : List Text :=
  names.foldl follow []

/-- A path as it is written from the root on, without two dots, in a directory. -/
def straightened (path workingDirectory : Path) : Path :=
  let full := workingDirectory.join path
  { full with names := settle full.names }

/-- The path from the root without two dots that a path denotes in a directory. -/
def settled (path workingDirectory : Path) : Path :=
  { path.straightened workingDirectory with anchor := .root }

/--
Whether a path can lead anywhere: the null character ends every name, so no file
has it in its name.
-/
def canLead (path : Path) : Bool :=
  path.names.all fun name => !name.contains '\x00'

/-- What leads from a base to a path inside it. -/
def relativeTo? (base path : Path) : Option Path :=
  if base.anchor = path.anchor then
    (base.names.isPrefixOf? path.names).map fun names => { anchor := .current, names }
  else
    none

end Path

end TestAudit
