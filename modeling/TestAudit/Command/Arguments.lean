import TestAudit.Text.Digit
import TestAudit.Text.Quoted

namespace TestAudit.Command

/-!
# Command lines

How the words of a command line become options and an operand. Every word is
classified on its own first; then options take their values from the words behind
them. Long options may be shortened as long as one option is meant, a value may
stand behind an equals sign, and two hyphens end the options.
-/

/-- A long option. -/
structure OptionSpec where
  name : Text
  takesValue : Bool
  deriving Repr, DecidableEq

/-- What a command understands besides asking for help. -/
structure Grammar where
  program : Text
  options : List OptionSpec
  hasOperand : Bool
  deriving Repr, DecidableEq

/-- The long option that asks for help. -/
def helpOption : OptionSpec where
  name := "--help"
  takesValue := false

namespace OptionSpec

/-- An option as messages name it, with its short form if it has one. -/
def shownName (option : OptionSpec) : Text :=
  if option = helpOption then "-h/--help" else option.name

end OptionSpec

namespace Grammar

/-- All long options of a command. -/
def allOptions (grammar : Grammar) : List OptionSpec :=
  helpOption :: grammar.options

/-- The option with a given name. -/
def option? (grammar : Grammar) (name : Text) : Option OptionSpec :=
  grammar.allOptions.find? (·.name = name)

end Grammar

/-! ## Faults -/

/-- Why a command line cannot be used. -/
inductive UsageFault where
  | ambiguous (written : Text) (candidates : List OptionSpec)
  | missingValue (option : OptionSpec)
  | ignoredValue (option : OptionSpec) (value : Text)
  | unrecognized (words : List Text)
  deriving Repr, DecidableEq

namespace UsageFault

/-- The message for a command line that cannot be used. -/
def message : UsageFault → Text
  | .ambiguous written candidates =>
      "ambiguous option: " ++ written ++ " could match " ++
        Text.joinWith ", ".toList (candidates.map (·.name))
  | .missingValue option => "argument " ++ option.shownName ++ ": expected one argument"
  | .ignoredValue option value =>
      "argument " ++ option.shownName ++ ": ignored explicit argument " ++ value.quoted
  | .unrecognized words => "unrecognized arguments: " ++ Text.joinWith [' '] words

end UsageFault

/-! ## Words -/

/-- What a word of a command line is. -/
inductive Word where
  /-- A word that is no option. -/
  | operand (text : Text)
  /-- A long option, with the value behind its equals sign. -/
  | option (spec : OptionSpec) (value : Option Text)
  /-- The short option for help, with the letters behind it. -/
  | shortHelp (letters : Text)
  /-- A word that looks like an option but is none. -/
  | unknown (text : Text)
  /-- The first two hyphens that stand alone. -/
  | separator
  deriving Repr, DecidableEq

/-- Whether decimal digits, at least one, are all of a text. -/
def allDigits (text : Text) : Bool :=
  text ≠ [] && text.all Text.isDigit

/-- Whether a text is a negative decimal number, which a line feed may follow. -/
def isNegativeNumber (text : Text) : Bool :=
  match if text.getLast? = some '\n' then text.dropLast else text with
  | '-' :: number =>
      allDigits number ||
        match number.dropWhile Text.isDigit with
        | '.' :: decimals => allDigits decimals
        | _ => false
  | _ => false

/-- The name and the value of a written option, divided at the first equals sign. -/
def divided (text : Text) : Text × Option Text :=
  match text.cutAt? '=' with
  | some (name, value) => (name, some value)
  | none => (text, none)

/-- The options that a written option can mean: the one of that name, else those it shortens. -/
def candidates (grammar : Grammar) (name : Text) : List OptionSpec :=
  match grammar.option? name with
  | some option => [option]
  | none => grammar.allOptions.filter fun option => option.name.startsWith name

/-- A word that looks like an option but is none; with a blank, or as a number, it is an operand. -/
def unmatched (text : Text) : Word :=
  if isNegativeNumber text || text.contains ' ' then .operand text else .unknown text

/-- What a word in front of the separator is. -/
def classify (grammar : Grammar) (text : Text) : Except UsageFault Word :=
  match text with
  | '-' :: '-' :: _ =>
      let (name, value) := divided text
      match candidates grammar name with
      | [] => .ok (unmatched text)
      | [option] => .ok (.option option value)
      | several => .error (.ambiguous text several)
  | '-' :: 'h' :: letters => .ok (.shortHelp letters)
  | '-' :: _ :: _ => .ok (unmatched text)
  | _ => .ok (.operand text)

/-- The two hyphens that end the options. -/
def endOfOptions : Text :=
  "--"

/-- What the words of a command line are. -/
def classifyAll (grammar : Grammar) : List Text → Except UsageFault (List Word)
  | [] => .ok []
  | text :: texts =>
      if text = endOfOptions then
        .ok (.separator :: texts.map .operand)
      else do
        let word ← classify grammar text
        let words ← classifyAll grammar texts
        return word :: words

/-! ## Arguments -/

/-- Whether a command line still has a place for its operand. -/
inductive OperandPlace where
  | open
  /-- The operand was the word just before. -/
  | justFilled
  | closed
  deriving Repr, DecidableEq

/-- The arguments of a command. -/
structure Arguments where
  /-- The options that were given, the last one first. -/
  given : List (Text × Text) := []
  operand : Option Text := none
  /-- The words that belong to nothing, the last one first. -/
  surplus : List Text := []
  deriving Repr, DecidableEq

namespace Arguments

/-- The value of an option; the last one counts, and without one it is empty. -/
def value (arguments : Arguments) (name : Text) : Text :=
  (arguments.given.lookup name).getD []

/-- Whether an option was given. -/
def has (arguments : Arguments) (name : Text) : Bool :=
  (arguments.given.lookup name).isSome

/-- The arguments with one more option. -/
def give (arguments : Arguments) (option : OptionSpec) (value : Text) : Arguments :=
  { arguments with given := (option.name, value) :: arguments.given }

/-- The arguments with one more word that belongs to nothing. -/
def leave (arguments : Arguments) (word : Text) : Arguments :=
  { arguments with surplus := word :: arguments.surplus }

end Arguments

/-- A usable command line: arguments, or the wish for help. -/
inductive Invocation where
  | help
  | arguments (arguments : Arguments)
  deriving Repr, DecidableEq

/-- Short options behind the one for help: that option is the only one there is. -/
def helpCluster : Text → Except UsageFault Invocation
  | [] => .ok .help
  | c :: letters =>
      if c = 'h' then helpCluster letters else .error (.ignoredValue helpOption (c :: letters))

/-- What stands behind the short option for help: more short options, also behind an equals sign. -/
def helpWith : Text → Except UsageFault Invocation
  | ['='] => .error (.ignoredValue helpOption [])
  | '=' :: letters => helpCluster letters
  | letters => helpCluster letters

/-- The value behind an equals sign; two hyphens are no value. -/
def explicitValue (value : Text) : Text :=
  if value = endOfOptions then [] else value

/-- The place of the operand behind an option. -/
def OperandPlace.afterOption : OperandPlace → OperandPlace
  | .open => .open
  | _ => .closed

/-- The invocation that the remaining words complete. -/
def collect : OperandPlace → Arguments → List Word → Except UsageFault Invocation
  | _, arguments, [] =>
      if arguments.surplus = [] then
        .ok (.arguments arguments)
      else
        .error (.unrecognized arguments.surplus.reverse)
  | .open, arguments, .operand text :: words =>
      collect .justFilled { arguments with operand := some text } words
  | _, arguments, .operand text :: words => collect .closed (arguments.leave text) words
  | .closed, arguments, .separator :: words =>
      collect .closed (arguments.leave endOfOptions) words
  | .justFilled, arguments, .separator :: words => collect .closed arguments words
  | .open, arguments, .separator :: words => collect .open arguments words
  | place, arguments, .unknown text :: words =>
      collect place.afterOption (arguments.leave text) words
  | _, _, .shortHelp letters :: _ => helpWith letters
  | place, arguments, .option spec (some value) :: words =>
      if spec.takesValue then
        collect place.afterOption (arguments.give spec (explicitValue value)) words
      else
        .error (.ignoredValue spec value)
  | place, arguments, .option spec none :: words =>
      if spec.takesValue then
        match words with
        | .operand value :: words => collect place.afterOption (arguments.give spec value) words
        | _ => .error (.missingValue spec)
      else if spec = helpOption then
        .ok .help
      else
        collect place.afterOption (arguments.give spec []) words

/-- The invocation that a command line means. -/
def Grammar.read (grammar : Grammar) (texts : List Text) : Except UsageFault Invocation := do
  let words ← classifyAll grammar texts
  collect (if grammar.hasOperand then .open else .closed) {} words

end TestAudit.Command
