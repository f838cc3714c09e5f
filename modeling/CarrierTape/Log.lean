/-!
Log entries and the levels from which on they are written.
-/

namespace CarrierTape

inductive LogLevel where
  | error
  | warn
  | info
  | debug
  | trace
deriving DecidableEq

namespace LogLevel

def all : List LogLevel :=
  [.trace, .debug, .info, .warn, .error]

def name : LogLevel → String
  | .error => "error"
  | .warn => "warn"
  | .info => "info"
  | .debug => "debug"
  | .trace => "trace"

/-- The level with this name in any letter case. No letter outside ASCII has a lower
case within these names. -/
def ofName? (name : String) : Option LogLevel :=
  all.find? (·.name.toList == name.toList.map Char.toLower)

def verbosity : LogLevel → Nat
  | .error => 1
  | .warn => 2
  | .info => 3
  | .debug => 4
  | .trace => 5

def tag : LogLevel → String
  | .error => "ERROR"
  | .warn => "WARN"
  | .info => "INFO"
  | .debug => "DEBUG"
  | .trace => "TRACE"

end LogLevel

structure LogEntry where
  level : LogLevel
  message : String
deriving DecidableEq

namespace LogEntry

def text (e : LogEntry) : String :=
  e.level.tag ++ " " ++ e.message

end LogEntry

/-- Which entries are written by a run that logs from a level on. -/
abbrev LogFilter := LogLevel → LogEntry → Bool

/-- The levels alone decide. -/
def LogFilter.byLevel : LogFilter :=
  fun level e => e.level.verbosity ≤ level.verbosity

end CarrierTape
