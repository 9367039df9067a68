import TestAudit.Evidence.Screenshot
import TestAudit.Files.Project
import TestAudit.Log
import TestAudit.Text.Base64

namespace TestAudit

/-!
# Images

The images in the evidence directory of a project are embedded in the report,
each as a data URI that holds all of its bytes.
-/

/-- An image that is bound to a criterion by its name. -/
structure Image where
  filename : Text
  criterion : Option Text
  caption : Text
  dataUri : Text
  deriving Repr, DecidableEq

namespace Image

/-- The name under which binding evidence writes to the log. -/
def logSource : Text :=
  "testwarden.evidence.evidence_binder"

/-- The directories of a project that hold evidence by convention, the preferred one first. -/
def conventionalDirectories : List Text :=
  ["tests/evidence", "test-evidence", "evidence", "tests/screenshots"]

/-- The endings of images, and their media types. -/
def mediaTypes : List (Text × Text) :=
  [ (".png", "image/png"),
    (".jpg", "image/jpeg"),
    (".jpeg", "image/jpeg"),
    (".gif", "image/gif"),
    (".webp", "image/webp") ]

/-- The media type of files with a given ending, in capital or small letters. -/
def mediaType? (suffix : Text) : Option Text :=
  mediaTypes.lookup suffix.lowerAscii

/-! ## Encoding -/

/-- Why an image cannot be encoded. -/
inductive Fault where
  | unsupported (suffix : Text)
  | access (fault : Tree.Fault)
  deriving Repr, DecidableEq

namespace Fault

/-- The message for an image that cannot be encoded. -/
def message : Fault → Text
  | .unsupported suffix =>
      "Unsupported image format: " ++ suffix ++ ". Supported: " ++
        Text.joinWith ", ".toList (mediaTypes.map Prod.fst)
  | .access fault => fault.message

end Fault

/-- The letters that write the bytes of an image, and its media type. -/
structure Encoded where
  letters : Text
  mediaType : Text
  deriving Repr, DecidableEq

/-- The encoded image in a file. -/
def encode (tree : Tree) (path : Path) : Except Fault Encoded :=
  match mediaType? path.suffix with
  | none => .error (.unsupported path.suffix)
  | some mediaType => do
      let content ← (tree.read path).mapError .access
      return { letters := Text.Base64.encode content, mediaType }

/-! ## Binding -/

/-- The first evidence directory that a project has. -/
def directory? (project : Project) (tree : Tree) : Except Tree.Fault (Option Path) :=
  (conventionalDirectories.map project.resolve).findM? tree.isDirectory

/-- Whether an entry of a directory is a file with the ending of an image. -/
def isImageEntry : Text × Node → Bool
  | (name, node) => node.isFile && (mediaType? (Path.suffixOf name)).isSome

/-- The names of the images in a directory, in code-point order. -/
def namesIn (tree : Tree) (directory : Path) : Except Tree.Fault (List Text) := do
  let entries ← tree.entries directory
  return Tree.sortedNames isImageEntry entries

/-- The image with a given name and encoding. -/
def ofEncoded (name : Text) (encoded : Encoded) : Image where
  filename := name
  criterion := Screenshot.criterion? name
  caption := Screenshot.caption name
  dataUri := "data:" ++ encoded.mediaType ++ ";base64," ++ encoded.letters

/-- The image with a given name in a directory; one that cannot be read is passed over. -/
def bindOne (tree : Tree) (directory : Path) (name : Text) : Logged (Option Image) :=
  match encode tree (directory.descend [name]) with
  | .ok encoded => pure (some (ofEncoded name encoded))
  | .error fault => {
      log := [{
        source := logSource
        level := .warning
        message := "Skipping unreadable screenshot " ++ name ++ ": " ++ fault.message
      }]
      value := none
    }

/-- The images with given names in a directory. -/
def bindAll (tree : Tree) (directory : Path) : List Text → Logged (List Image)
  | [] => pure []
  | name :: names => do
      let image? ← bindOne tree directory name
      let images ← bindAll tree directory names
      return image?.toList ++ images

/-- What the log says about a project without evidence. -/
def noDirectoryLine : LogLine where
  source := logSource
  level := .info
  message := "No evidence directory found; report will have no screenshots"

/-- What the log says about the images of a directory. -/
def countLine (directory : Path) (images : List Image) : LogLine where
  source := logSource
  level := .info
  message := "Embedded " ++ Text.ofNat images.length ++ " screenshots from " ++ directory.toText

/-- The images of an evidence directory, in the order of their names. -/
def bind (tree : Tree) : Option Path → Logged (Except Tree.Fault (List Image))
  | none => do
      Logged.tell [noDirectoryLine]
      return .ok []
  | some directory =>
      match namesIn tree directory with
      | .error fault => pure (.error fault)
      | .ok names => do
          let images ← bindAll tree directory names
          Logged.tell [countLine directory images]
          return .ok images

/-- The images of a project. -/
def ofProject (project : Project) (tree : Tree) : Logged (Except Tree.Fault (List Image)) :=
  match directory? project tree with
  | .error fault => pure (.error fault)
  | .ok directory? => bind tree directory?

end Image

end TestAudit
