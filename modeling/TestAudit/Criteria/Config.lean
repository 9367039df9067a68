import TestAudit.Files.Tree
import TestAudit.Json.Value
import TestAudit.Log
import TestAudit.Text.Blank
import TestAudit.Text.Word

namespace TestAudit

/-!
# Project configuration

A configuration is written line by line. A key at the margin has a text, or opens
a section of nested keys or of list items; keys are nested two blanks deep. Blank
lines and comments say nothing, deeper lines are passed over with a warning. Each
line is classified on its own first; what it means then depends on the section
that is open.
-/

/-- What a key of a configuration stands for. -/
inductive ConfigValue where
  | text (text : Text)
  | map (entries : List (Text × Text))
  | items (items : List Text)
  deriving Repr, DecidableEq

/-- A configuration: its keys, each with a value, in the order of their first lines. -/
abbrev Config := List (Text × ConfigValue)

namespace Config

/-- The name under which reading configurations writes to the log. -/
def logSource : Text :=
  "testwarden.evidence.config_loader"

/-- The name of the configuration file of a project. -/
def fileName : Text :=
  "testwarden-config.yml"

/-! ## Lines -/

/-- What a line of a configuration is. -/
inductive Line where
  /-- A blank line or a comment. -/
  | silent
  /-- A key at the margin. -/
  | key (name value : Text)
  /-- A line at the margin that is no key. -/
  | broken (shown : Text)
  /-- An item of a list. -/
  | item (value shown : Text)
  /-- A key inside a section. -/
  | nested (name value shown : Text)
  /-- A line that is indented in any other way. -/
  | deep (shown : Text)
  deriving Repr, DecidableEq

/-- Whether a text begins and ends with the same quote. -/
def isQuoted (text : Text) : Bool :=
  match text with
  | first :: _ :: _ =>
      (first = '\x27' || first = '\x22') && text.getLast? = some first
  | _ => false

/-- A value without the blanks around it and without one pair of quotes. -/
def unquote (text : Text) : Text :=
  let value := text.trim
  if isQuoted value then (value.drop 1).dropLast else value

/-- Whether a character may stand in a key. -/
def isKeyChar (c : Char) : Bool :=
  Text.isWord c || c == '-'

/-- The key at the beginning of a text, and the text after its colon. -/
def keyAtStart? : Text → Option (Text × Text)
  | [] => none
  | c :: rest =>
      if Text.isWord c then
        match rest.dropWhile isKeyChar with
        | ':' :: value => some (c :: rest.takeWhile isKeyChar, value)
        | _ => none
      else
        none

/-- What follows the hyphen and the blanks of a list item. -/
def itemValue? : Text → Option Text
  | '-' :: c :: rest => if Text.isBlank c then some rest else none
  | _ => none

/-- The line of a list item, of a nested key, or of neither. -/
def indentedLine (line shown : Text) : Line :=
  let inner := (line.afterStart? "  ").getD line
  match itemValue? inner with
  | some value => .item (unquote value) shown
  | none =>
      match (line.afterStart? "  ").bind keyAtStart? with
      | some (name, value) => .nested name (unquote value) shown
      | none => .deep shown

/-- Whether a line belongs to a section: it is indented or begins with a hyphen. -/
def isInner (line : Text) : Bool :=
  match line with
  | c :: _ => c == ' ' || c == '\t' || c == '-'
  | [] => false

/-- What a line is. -/
def classify (raw : Text) : Line :=
  let line := raw.trimEnd
  let shown := line.trim
  if shown = [] || shown.startsWith "#" then
    .silent
  else if isInner line then
    indentedLine line shown
  else
    match keyAtStart? line with
    | some (name, value) => .key name (unquote value)
    | none => .broken shown

/-! ## Sections -/

/-- Why a text is no configuration; the line is counted from one. -/
inductive Fault where
  | notKeyValue (line : Nat) (shown : Text)
  | beforeAnyKey (line : Nat) (shown : Text)
  deriving Repr, DecidableEq

namespace Fault

/-- The line of a fault. -/
def line : Fault → Nat
  | .notKeyValue line _ => line
  | .beforeAnyKey line _ => line

/-- The message for a fault. -/
def message : Fault → Text
  | .notKeyValue line shown =>
      "Config line " ++ Text.ofNat line ++ ": expected 'key: value', got " ++ shown.quoted
  | .beforeAnyKey line shown =>
      "Config line " ++ Text.ofNat line ++ ": entry " ++ shown.quoted ++
        " appears before any top-level key"

end Fault

/-- What has been read so far: the entries, and the key whose section is open. -/
structure Progress where
  entries : Config := []
  openKey : Option Text := none
  deriving Repr, DecidableEq

/-- Why a line is passed over, with its number and the key whose section is open. -/
inductive Warning where
  | notList (line : Nat) (key : Text)
  | notObject (line : Nat) (key : Text)
  | tooDeep (line : Nat) (key : Text)
  deriving Repr, DecidableEq

namespace Warning

/-- The message for a line that is passed over. -/
def message : Warning → Text
  | .notList line key =>
      "Ignoring list item on line " ++ Text.ofNat line ++ ": '" ++ key ++ "' is not a list"
  | .notObject line key =>
      "Ignoring nested key on line " ++ Text.ofNat line ++ ": '" ++ key ++ "' is not an object"
  | .tooDeep line key =>
      "Ignoring line " ++ Text.ofNat line ++ " under '" ++ key ++
        "': nesting deeper than one level is not supported"

/-- What the log says about a line that is passed over. -/
def logLine (warning : Warning) : LogLine where
  source := logSource
  level := .warning
  message := warning.message

end Warning

/-- The value that a key at the margin has at first: its text, or an empty map. -/
def openingValue (text : Text) : ConfigValue :=
  if text = [] then .map [] else .text text

/-- A section after a list item. -/
def withItem (number : Nat) (key item : Text) : ConfigValue → Logged ConfigValue
  | .map [] => pure (.items [item])
  | .items items => pure (.items (items ++ [item]))
  | other => {
      log := [(Warning.notList number key).logLine]
      value := other
    }

/-- A section after a nested key; one without a value leaves it as it is. -/
def withNested (number : Nat) (key name value : Text) : ConfigValue → Logged ConfigValue
  | .map entries => pure (.map (if value = [] then entries else Json.setMember name value entries))
  | other => {
      log := [(Warning.notObject number key).logLine]
      value := other
    }

/-- A section after a line that is indented too deep. -/
def withDeep (number : Nat) (key : Text) (value : ConfigValue) : Logged ConfigValue where
  log := [(Warning.tooDeep number key).logLine]
  value := value

/-- Changes the section that is open; without one, the line is a fault. -/
def inSection
    (number : Nat)
    (shown : Text)
    (change : Text → ConfigValue → Logged ConfigValue)
    (progress : Progress) :
    Logged (Except Fault Progress) :=
  match progress.openKey with
  | none => pure (.error (.beforeAnyKey number shown))
  | some key => do
      let value ← change key ((progress.entries.lookup key).getD (.map []))
      return .ok { progress with entries := Json.setMember key value progress.entries }

/-- What has been read after one more line, which has the given number. -/
def step (number : Nat) (line : Line) (progress : Progress) : Logged (Except Fault Progress) :=
  match line with
  | .silent => pure (.ok progress)
  | .key name value =>
      pure (.ok {
        entries := Json.setMember name (openingValue value) progress.entries
        openKey := some name
      })
  | .broken shown => pure (.error (.notKeyValue number shown))
  | .item value shown => inSection number shown (withItem number · value) progress
  | .nested name value shown => inSection number shown (withNested number · name value) progress
  | .deep shown => inSection number shown (withDeep number) progress

/-- What has been read after lines, the first of which has the given number. -/
def readLines : Nat → List Text → Progress → Logged (Except Fault Progress)
  | _, [], progress => pure (.ok progress)
  | number, line :: lines, progress => do
      match ← step number (classify line) progress with
      | .ok progress => readLines (number + 1) lines progress
      | .error fault => return .error fault

/-- The configuration that a text holds. -/
def parse (text : Text) : Logged (Except Fault Config) :=
  (fun result => result.map (·.entries)) <$> readLines 1 text.lines {}

/-! ## Files -/

/-- Why a configuration file gives no configuration. -/
inductive LoadFault where
  /-- It cannot be told whether there is a file. -/
  | access (fault : Tree.Fault)
  | missing (path : Path)
  | unreadable (path : Path) (fault : Tree.TextFault)
  | malformed (fault : Fault)
  deriving Repr, DecidableEq

namespace LoadFault

/-- The message for a configuration file that gives none. -/
def message : LoadFault → Text
  | .access fault => fault.message
  | .missing path => "Config not found: " ++ path.toText
  | .unreadable path fault => "Cannot read config " ++ path.toText ++ ": " ++ fault.message
  | .malformed fault => fault.message

end LoadFault

/-- The configuration in a file. -/
def load (tree : Tree) (path : Path) : Logged (Except LoadFault Config) :=
  match tree.isFile path with
  | .error fault => pure (.error (.access fault))
  | .ok false => pure (.error (.missing path))
  | .ok true =>
      match tree.readText path with
      | .ok text => (fun result => result.mapError .malformed) <$> parse text
      | .error fault => pure (.error (.unreadable path fault))

/-! ## Names of projects -/

/-- Whether a value holds nothing. -/
def isEmptyValue : ConfigValue → Bool
  | .text text => text.isEmpty
  | .map entries => entries.isEmpty
  | .items items => items.isEmpty

/-- The project name in a configuration: the first of two keys that holds something decides. -/
def projectName? (config : Config) : Option Text :=
  let names : List Text := ["project-name", "name"]
  match (names.filterMap (List.lookup · config)).find? (!isEmptyValue ·) with
  | some (.text text) => some text
  | _ => none

end Config

end TestAudit
