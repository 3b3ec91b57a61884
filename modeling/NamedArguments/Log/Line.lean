/-!
Log lines. A line names the part of the program it comes from and its severity.
-/
namespace NamedArguments

/-- Severities in ascending order; the last is a threshold only. -/
inductive Level where
  | debug
  | info
  | warn
  | error
  | silent
deriving DecidableEq, Repr

namespace Level

def all : List Level := [debug, info, warn, error, silent]

def name : Level → String
  | debug => "debug"
  | info => "info"
  | warn => "warn"
  | error => "error"
  | silent => "silent"

/-- The name as it stands in a line. -/
def label : Level → String
  | debug => "DEBUG"
  | info => "INFO"
  | warn => "WARN"
  | error => "ERROR"
  | silent => "SILENT"

def rank : Level → Nat
  | debug => 10
  | info => 20
  | warn => 30
  | error => 40
  | silent => 100

/-- The level of a name. -/
def ofName? (name : String) : Option Level := all.find? (·.name == name)

@[simp] theorem ofName?_name (level : Level) : ofName? level.name = some level := by
  cases level <;> decide

end Level

/-- A line with the severity it is written at. -/
structure Line where
  level : Level
  text : String
deriving DecidableEq, Repr

/-- The line for a message from a part of the program. -/
def Line.of (scope : String) (level : Level) (message : String) : Line :=
  { level, text := "[kwargs/" ++ scope ++ "] " ++ level.label ++ ": " ++ message }

end NamedArguments
