import TestAudit.Command.Arguments
import TestAudit.Finding.Lint
import TestAudit.Report.Generate

namespace TestAudit.Command

/-!
# Commands

The three commands: linting the tests of a project, linting one edited file, and
writing the evidence report. Each maps its words and the files it sees to what it
prints, how it ends, and the files it leaves behind.
-/

/-- What a command finds when it starts. -/
structure Environment where
  tree : Tree
  /-- The project root that the environment names; an empty text names none. -/
  projectRoot : Text := []
  /-- The moment that lines of log files begin with. -/
  logMoment : Text
  /-- The moment that log lines on the console begin with. -/
  consoleMoment : Text
  /-- The moment that a report shows. -/
  reportMoment : Text
  deriving Repr

/-- Why a command breaks off without an outcome of its own. -/
inductive Abort where
  | projectRoot (fault : Tree.Fault)
  | logFile (fault : Tree.Fault)
  | lint (fault : Tree.Fault)
  | report (fault : Report.Fault)
  deriving Repr

/-- The message for a command that breaks off. -/
def Abort.message : Abort → Text
  | .projectRoot fault => fault.message
  | .logFile fault => fault.message
  | .lint fault => fault.message
  | .report fault => fault.message

/-- The files that a command leaves behind, and its outcome. -/
structure Conclusion where
  tree : Tree
  result : Except Abort Outcome
  deriving Repr

/-! ## Options -/

/-- The option that names the root of the project. -/
def projectRootOption : OptionSpec where
  name := "--project-root"
  takesValue := true

/-- The option that names a log file. -/
def logFileOption : OptionSpec where
  name := "--log-file"
  takesValue := true

/-- The command line of linting. -/
def lintGrammar : Grammar where
  program := "testwarden-lint"
  options := [
    { name := "--dir", takesValue := true },
    { name := "--file", takesValue := true },
    { name := "--json", takesValue := false },
    { name := "--fix-suggestions", takesValue := false },
    projectRootOption,
    logFileOption]
  hasOperand := false

/-- The command line of linting one edited file. -/
def editedGrammar : Grammar where
  program := "testwarden-lint-hook"
  options := [projectRootOption]
  hasOperand := true

/-- The command line of writing a report. -/
def reportGrammar : Grammar where
  program := "testwarden-report"
  options := [
    { name := "--results", takesValue := true },
    { name := "--template", takesValue := true },
    { name := "--output", takesValue := true },
    { name := "--config", takesValue := true },
    projectRootOption,
    logFileOption]
  hasOperand := false

/-! ## Common parts -/

/-- The outcome of a command line that cannot be used. -/
def usageOutcome (grammar : Grammar) (fault : UsageFault) : Outcome where
  exitCode := 2
  stderr := grammar.program ++ ": error: " ++ fault.message ++ ['\n']

/-- The outcome of asking for help. -/
def helpOutcome (grammar : Grammar) : Outcome where
  exitCode := 0
  stdout :=
    "usage: " ++ grammar.program ++
      grammar.options.flatMap (fun option => ' ' :: '[' :: option.name ++ [']']) ++ ['\n']

/-- The path that an option or the environment names as the root of the project, if one does. -/
def namedRoot (environment : Environment) (arguments : Arguments) : Path :=
  let named := arguments.value projectRootOption.name
  .ofText (if named = [] then environment.projectRoot else named)

/-- The project: its root is the path that is named, or the current place. -/
def projectOf (environment : Environment) (arguments : Arguments) : Project where
  root := (namedRoot environment arguments).settled environment.tree.workingPath

/-- The log file that the options name. -/
def logFileOf (environment : Environment) (project : Project) (arguments : Arguments) :
    Option LogFile :=
  match arguments.value logFileOption.name with
  | [] => none
  | named => some { path := project.resolve named, moment := environment.logMoment }

/-- The outcome behind what the console shows of a log. -/
def withConsole (environment : Environment) (log : List LogLine) (outcome : Outcome) : Outcome :=
  { outcome with stderr := consoleLog environment.consoleMoment log ++ outcome.stderr }

/-- Reads a command line and goes on with its arguments. -/
def reading
    (grammar : Grammar)
    (environment : Environment)
    (words : List Text)
    (next : Arguments → Conclusion) :
    Conclusion :=
  match grammar.read words with
  | .error fault => { tree := environment.tree, result := .ok (usageOutcome grammar fault) }
  | .ok .help => { tree := environment.tree, result := .ok (helpOutcome grammar) }
  | .ok (.arguments arguments) => next arguments

/-- Goes on with the project, if a path names its root. -/
def inProject
    (environment : Environment)
    (arguments : Arguments)
    (next : Project → Conclusion) :
    Conclusion :=
  let root := namedRoot environment arguments
  if root.canLead then
    next (projectOf environment arguments)
  else
    {
      tree := environment.tree
      result := .error (.projectRoot { reason := .nullCharacter, path := root })
    }

/-- Opens the log file, if there is one, and goes on with what is seen then. -/
def logging
    (environment : Environment)
    (logFile : Option LogFile)
    (next : Sight → Conclusion) :
    Conclusion :=
  match logFile with
  | none => next { tree := environment.tree }
  | some file =>
      match file.start environment.tree with
      | (tree, .ok ()) => next { tree, logFile }
      | (tree, .error fault) => { tree, result := .error (.logFile fault) }

/-! ## The three commands -/

/-- What the options of linting ask for. -/
def lintRequest (arguments : Arguments) : Lint.Request where
  file := arguments.value "--file"
  directory := arguments.value "--dir"
  json := arguments.has "--json"
  suggestions := arguments.has "--fix-suggestions"

/-- The outcome of linting behind what the console shows of its log. -/
def lintResult (environment : Environment) (run : Logged (Except Tree.Fault Outcome)) :
    Except Abort Outcome :=
  (run.value.mapError .lint).map (withConsole environment run.log)

/-- Lints the tests of a project. -/
def lint (environment : Environment) (words : List Text) : Conclusion :=
  reading lintGrammar environment words fun arguments =>
    inProject environment arguments fun project =>
      logging environment (logFileOf environment project arguments) fun sight =>
        let run := Lint.run project (lintRequest arguments) sight
        {
          tree := (sight.after run.log).tree
          result := lintResult environment run
        }

/-- Lints one edited file. -/
def lintEdited (environment : Environment) (words : List Text) : Conclusion :=
  reading editedGrammar environment words fun arguments =>
    inProject environment arguments fun project =>
      let run :=
        (Lint.runEdited project (arguments.operand.getD [])).onFiles environment.tree
      {
        tree := environment.tree
        result := lintResult environment run
      }

/-- What the options of writing a report ask for. -/
def reportRequest (arguments : Arguments) : Report.Request where
  results := arguments.value "--results"
  template := arguments.value "--template"
  output := arguments.value "--output"
  config := arguments.value "--config"

/-- The outcome of a report that is not written, if the fault is one that the command tells. -/
def faultResult (fault : Report.Fault) : Except Abort Outcome :=
  if fault.isExpected then
    .ok { exitCode := 1, stderr := "ERROR: " ++ fault.message ++ ['\n'] }
  else
    .error (.report fault)

/-- Stores a prepared report. -/
def storing (tree : Tree) (prepared : Report.Prepared) : Conclusion :=
  match prepared.store tree with
  | (changed, .ok ()) =>
      { tree := changed, result := .ok { exitCode := 0, stdout := prepared.summary } }
  | (changed, .error fault) => { tree := changed, result := faultResult (.output fault) }

/-- Writes the evidence report; the log is complete before the document is stored. -/
def report (environment : Environment) (words : List Text) : Conclusion :=
  reading reportGrammar environment words fun arguments =>
    inProject environment arguments fun project =>
      logging environment (logFileOf environment project arguments) fun sight =>
        let run := Report.prepare project environment.reportMoment (reportRequest arguments) sight
        let logged := (sight.after run.log).tree
        let conclusion : Conclusion :=
          match run.value with
          | .error fault => { tree := logged, result := faultResult fault }
          | .ok prepared => storing logged prepared
        { conclusion with result := conclusion.result.map (withConsole environment run.log) }

/-! ## Choice of a command -/

/-- A command: what it understands, and what it does. -/
structure Program where
  grammar : Grammar
  run : Environment → List Text → Conclusion

/-- The commands by name. -/
def programs : List (Text × Program) :=
  [ ("lint", { grammar := lintGrammar, run := lint }),
    ("lint-hook", { grammar := editedGrammar, run := lintEdited }),
    ("report", { grammar := reportGrammar, run := report }) ]

/-- The places of a project where a command looks by convention. -/
def conventionalPlaces : List Text :=
  Discovery.conventionalDirectories ++ Image.conventionalDirectories ++
    CriteriaSource.conventionalDocuments ++ Report.conventionalResults ++
    [Config.fileName, Report.conventionalOutput]

/-- The places that arguments name; the root of the project is none of them. -/
def namedPlaces (arguments : Arguments) : List Text :=
  ((arguments.given.filter fun (name, _) => name ≠ projectRootOption.name).map Prod.snd ++
    arguments.operand.toList).filter (· ≠ [])

/-- The paths at which a command with the given words looks. -/
def watchedPaths (grammar : Grammar) (environment : Environment) (words : List Text) : List Path :=
  match grammar.read words with
  | .ok (.arguments arguments) =>
      let project := projectOf environment arguments
      (conventionalPlaces ++ namedPlaces arguments).map project.resolve
  | _ => []

end TestAudit.Command
