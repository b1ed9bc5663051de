/-!
Log entries. Computations give their log as a value beside their result.
-/

namespace TreeShape

inductive LogLevel where
  | debug
  | info
  | warn
  | error
deriving Repr, DecidableEq

def LogLevel.label : LogLevel → String
  | debug => "DEBUG"
  | info => "INFO"
  | warn => "WARN"
  | error => "ERROR"

structure LogEntry where
  level : LogLevel
  message : String
deriving Repr, DecidableEq

def LogEntry.line (entry : LogEntry) : String :=
  s!"{entry.level.label} {entry.message}"

/-- What a computation has to say, and its result. The log of a failed one is what it said before
it failed. -/
structure Logged (ε α : Type) where
  log : List LogEntry
  result : Except ε α

end TreeShape
