import TestAudit.Text.Basic

namespace TestAudit

/-!
# Log lines

What a computation has to say besides its result is a list of log lines. A
`Logged` value carries both; running one computation after another puts their
lines one after the other. The console shows the lines that are more than
debugging, a log file all of them, each behind the moment at which it was written.
-/

/-- How important a log line is. -/
inductive LogLevel where
  | debug
  | info
  | warning
  deriving Repr, DecidableEq

namespace LogLevel

/-- The name of a level in log files. -/
def name : LogLevel → Text
  | .debug => "DEBUG"
  | .info => "INFO"
  | .warning => "WARNING"

end LogLevel

/-- One line of a log, with the part of the program that writes it. -/
structure LogLine where
  source : Text
  level : LogLevel
  message : Text
  deriving Repr, DecidableEq

namespace LogLine

/-- A log line on the console. -/
def consoleText (moment : Text) (line : LogLine) : Text :=
  moment ++ " [" ++ line.source ++ "] " ++ line.level.name ++ ": " ++ line.message ++ ['\n']

/-- A log line in a log file. -/
def fileText (moment : Text) (line : LogLine) : Text :=
  moment ++ " - " ++ line.source ++ " - " ++ line.level.name ++ " - " ++ line.message ++ ['\n']

end LogLine

/-- What the console shows of a log: the lines that are more than debugging. -/
def consoleLog (moment : Text) (log : List LogLine) : Text :=
  (log.filter (·.level ≠ .debug)).flatMap (·.consoleText moment)

/-- A value together with the log lines written while it was computed. -/
structure Logged (α : Type) where
  log : List LogLine
  value : α
  deriving Repr

namespace Logged

/-- Log lines without a value. -/
def tell (lines : List LogLine) : Logged Unit where
  log := lines
  value := ()

instance : Monad Logged where
  pure value := ⟨[], value⟩
  bind first next :=
    let second := next first.value
    ⟨first.log ++ second.log, second.value⟩

@[simp] theorem value_pure {α : Type} (value : α) :
    (pure value : Logged α).value = value :=
  rfl

@[simp] theorem value_bind {α β : Type} (first : Logged α) (next : α → Logged β) :
    (first >>= next).value = (next first.value).value :=
  rfl

end Logged

end TestAudit
