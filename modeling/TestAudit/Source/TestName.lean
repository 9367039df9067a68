import TestAudit.Source.Language

namespace TestAudit

/-!
# Names of test files

A file is a test file when its name follows a naming convention of one of the
languages. A line feed at the end of the name is not looked at.
-/

/-- A naming convention for test files. -/
inductive NamingConvention where
  /-- The name has the given ending. -/
  | endsWith (ending : Text)
  /-- The name is one line with the given beginning and ending. -/
  | framed (beginning ending : Text)
  /-- The name is one line with the given ending and at least one character before it. -/
  | stemmed (ending : Text)
  deriving Repr, DecidableEq

namespace NamingConvention

/-- Whether a text has no line feed. -/
def isOneLine (text : Text) : Bool :=
  !text.contains '\n'

/-- Whether a name follows the convention. -/
def accepts (name : Text) : NamingConvention → Bool
  | .endsWith ending => name.endsWith ending
  | .framed beginning ending =>
      match name.afterStart? beginning with
      | some rest => rest.endsWith ending && isOneLine (rest.take (rest.length - ending.length))
      | none => false
  | .stemmed ending =>
      name.endsWith ending && ending.length < name.length &&
        isOneLine (name.take (name.length - ending.length))

end NamingConvention

namespace Language

/-- The naming conventions for the test files of a language. -/
def namingConventions : Language → List NamingConvention
  | .script =>
      [ .endsWith ".spec.js",
        .endsWith ".test.js",
        .endsWith ".spec.ts",
        .endsWith ".test.ts",
        .endsWith ".spec.mjs",
        .endsWith ".test.mjs" ]
  | .csharp => [.endsWith "Tests.cs"]
  | .python => [.framed "test_" ".py", .stemmed "_test.py"]
  | .go => [.stemmed "_test.go"]

end Language

/-- A file name without a line feed at its end. -/
def withoutFinalNewline (name : Text) : Text :=
  if name.getLast? = some '\n' then name.dropLast else name

/-- Whether a file name follows a naming convention for test files. -/
def isTestFileName (name : Text) : Bool :=
  Language.all.any fun language =>
    language.namingConventions.any (·.accepts (withoutFinalNewline name))

end TestAudit
