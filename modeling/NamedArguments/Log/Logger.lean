import NamedArguments.Settings.Store
import NamedArguments.Value.Written

/-!
Loggers. A line is written when its severity is at least the threshold, which
is the logger's own or else read from the settings each time. A threshold or a
severity that is no level does not compare with levels.
-/
namespace NamedArguments

open Settings (Surroundings Store Access)

/-- The threshold that settings give: the debug flag lowers it, and what is no
level counts as the default. -/
def Settings.Loaded.threshold (loaded : Loaded) : Level :=
  if loaded.at "debug" matches .bool true then .debug
  else
    match loaded.at "log.level" with
    | .text name => (Level.ofName? name).getD .warn
    | _ => .warn

/-- Where a name stands among the levels. Names that every record inherits
stand among themselves, in the order of what they are written as. -/
inductive Standing where
  | rank (n : Nat)
  | inherited (written : String)
  | nowhere

namespace Standing

def ofLevel (level : Level) : Standing := .rank level.rank

def ofName (name : String) : Standing :=
  match Level.ofName? name with
  | some level => .ofLevel level
  | none =>
    let inherited := (Value.plain .merged []).member name
    if inherited.isGiven then (inherited.written?.map .inherited).getD .nowhere else .nowhere

/-- A value stands where the text stands that it is written as, and a symbol
nowhere. `none` for a value that cannot be written. -/
def ofValue? (v : Value) : Option Standing :=
  match v with
  | .symbol .. | .absent => some .nowhere
  | v => v.written?.map ofName

/-- Whether a severity reaches a threshold. -/
def reaches : Standing → Standing → Bool
  | .rank severity, .rank threshold => decide (threshold ≤ severity)
  | .inherited severity, .inherited threshold => decide (threshold ≤ severity)
  | _, _ => false

end Standing

/-- A logger for one part of a program. -/
structure Logger where
  scope : String
  /-- The fixed threshold, if one is given. -/
  level : Value
  /-- Whether lines go to a writer of the logger's own and not to the console. -/
  ownWriter : Bool

namespace Logger

/-- Whether a line of a severity would be written now. -/
def enabled (logger : Logger) (around : Surroundings) (store : Store) (severity : String) :
    Access Bool :=
  if logger.level.isGiven then
    match Standing.ofValue? logger.level with
    | some threshold =>
      { outcome := .ok ((Standing.ofName severity).reaches threshold), store, lines := [] }
    | none => { outcome := .error .unsupported, store, lines := [] }
  else
    Settings.read around store fun loaded =>
      (Standing.ofName severity).reaches (.ofLevel loaded.threshold)

/-- Writes a message. The answer is what the logger's own writer gets; a line
for the console follows those written on the way. -/
def write (logger : Logger) (around : Surroundings) (store : Store) (severity : Level)
    (message : String) : Access (List Line) :=
  let asked := logger.enabled around store severity.name
  let line := Line.of logger.scope severity message
  match asked.outcome with
  | .error fault => { outcome := .error fault, store := asked.store, lines := asked.lines }
  | .ok false => { outcome := .ok [], store := asked.store, lines := asked.lines }
  | .ok true =>
    if logger.ownWriter then
      { outcome := .ok [line], store := asked.store, lines := asked.lines }
    else { outcome := .ok [], store := asked.store, lines := asked.lines ++ [line] }

end Logger

/-- The threshold now in force. -/
def thresholdInForce (around : Surroundings) (store : Store) : Access Level :=
  Settings.read around store (·.threshold)

end NamedArguments
