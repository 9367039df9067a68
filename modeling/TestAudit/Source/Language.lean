import TestAudit.Text.Basic

namespace TestAudit

/-!
# Languages of test files

The language of a test file follows from the ending of its name, in whatever
letter case the ending is written.
-/

/-- A language in which test files are written. -/
inductive Language where
  | script
  | csharp
  | python
  | go
  deriving Repr, DecidableEq

namespace Language

/-- The name of a language in reports. -/
def name : Language → Text
  | .script => "script"
  | .csharp => "csharp"
  | .python => "python"
  | .go => "go"

/-- All languages. -/
def all : List Language :=
  [.script, .csharp, .python, .go]

/-- The language with a given name. -/
def ofName? (name : Text) : Option Language :=
  all.find? (·.name = name)

/-- File name endings with their languages. -/
def byEnding : List (Text × Language) :=
  [ (".js", .script),
    (".mjs", .script),
    (".cjs", .script),
    (".jsx", .script),
    (".ts", .script),
    (".tsx", .script),
    (".cs", .csharp),
    (".py", .python),
    (".go", .go) ]

/-- The language of a file by its name. -/
def ofFileName? (fileName : Text) : Option Language :=
  (byEnding.find? fun (ending, _) => fileName.lowerAscii.endsWith ending).map (·.2)

end Language

end TestAudit
