import NamedArguments.Settings.Environment
import NamedArguments.Settings.Finder
import NamedArguments.Log.Line

/-!
The settings of a running program. They are loaded at the first access: four
layers, from the lowest the defaults, the configuration file, what the program
has set, and the environment. The file is read once until a reset; the
environment is read when the settings are loaded and again each time the
program sets something. A loading that stops after the search leaves what the
search has found, and is tried anew at the next access.
-/
namespace NamedArguments.Settings

/-- What settings are read from. -/
structure Surroundings where
  environment : Environment
  finder : Finder

/-- Settings in use. -/
structure Loaded where
  file : Value
  programmatic : Value
  effective : Value
  /-- The name of the configuration file, if one gave settings. -/
  origin : Option String

/-- What loadings leave that have stopped: the settings of the last file, and the name
of the last that gave any. -/
structure Remains where
  file : Value
  origin : Option String

/-- Settings before and after they are loaded. Before, the program has set nothing and
nothing is in effect. -/
inductive Store where
  | unloaded (remains : Remains)
  | loaded (settings : Loaded)

/-- The settings in use, if they are loaded. -/
def Store.settings? : Store → Option Loaded
  | .unloaded _ => none
  | .loaded settings => some settings

@[simp] theorem Store.settings?_unloaded (remains : Remains) :
    (unloaded remains).settings? = none := rfl

@[simp] theorem Store.settings?_loaded (settings : Loaded) :
    (loaded settings).settings? = some settings := rfl

/-- The lowest layer. -/
def defaults : Value :=
  Value.plain .merged
    [("debug", .bool false), ("checks", .text "full"),
      ("log", Value.plain .merged [("level", .text "warn")])]

/-- All four layers, the environment uppermost. -/
def combine (file programmatic : Value) (environment : Environment) : Value :=
  layer (layer (layer defaults file) programmatic) (environmentLayer environment)

/-- Whether the layers cannot be laid over one another. -/
def combineRefused (file programmatic : Value) (environment : Environment) : Bool :=
  layerRefused defaults file || layerRefused (layer defaults file) programmatic ||
    layerRefused (layer (layer defaults file) programmatic) (environmentLayer environment)

/-- The message for a configuration file that cannot be loaded. -/
def failureMessage (reason : String) : String := "failed to load config file: " ++ reason

/-- What is written about a file that could not be loaded. -/
def FileLayer.warning (found : FileLayer) : List Line :=
  (found.failure.map fun reason => Line.of "config" .warn (failureMessage reason)).toList

/-- How a loading stops, with what it leaves and the lines written on the way. -/
structure Stop where
  fault : Fault
  remains : Remains
  lines : List Line

/-- Loads the settings. A file that fails costs a warning. The loading stops where the
files give no layer, and where their layer cannot be laid over the defaults. Where no
file gives settings, a name that an earlier loading has left stays. -/
def load (around : Surroundings) (before : Remains) : Except Stop (Loaded × List Line) :=
  match around.finder.layer with
  | .error fault => .error { fault, remains := before, lines := [] }
  | .ok found =>
    let origin := found.origin.or before.origin
    if combineRefused found.settings empty around.environment then
      .error
        { fault := .unsupported, remains := { file := found.settings, origin }
          lines := found.warning }
    else
      let loaded : Loaded :=
        { file := found.settings, programmatic := empty
          effective := combine found.settings empty around.environment, origin }
      .ok (loaded, found.warning)

/-- The settings in use, loaded now if they are not yet. -/
def ensure (around : Surroundings) (store : Store) : Except Stop (Loaded × List Line) :=
  match store with
  | .loaded loaded => .ok (loaded, [])
  | .unloaded remains => load around remains

/-- The result of an operation on settings: its answer, the settings after it
and the lines written on the way. -/
structure Access (α : Type) where
  outcome : Except Fault α
  store : Store
  lines : List Line

/-- The result of an operation that does not get to the settings. -/
def Stop.access {α : Type} (stop : Stop) : Access α :=
  { outcome := .error stop.fault, store := .unloaded stop.remains, lines := stop.lines }

/-- An operation that only reads. -/
def read {α : Type} (around : Surroundings) (store : Store) (ask : Loaded → α) : Access α :=
  match ensure around store with
  | .error stop => stop.access
  | .ok (loaded, lines) => { outcome := .ok (ask loaded), store := .loaded loaded, lines }

/-- The value at a path of the effective settings. -/
def Loaded.at (loaded : Loaded) (path : String) : Value :=
  follow loaded.effective (segments path)

/-- Whether a path meets a member that may not be read. -/
def Loaded.refuses (loaded : Loaded) (path : String) : Bool :=
  followRefused loaded.effective (segments path)

/-- An operation that reads the value at a path. -/
def readAt {α : Type} (around : Surroundings) (store : Store) (path : String)
    (answer : Value → α) : Access α :=
  match ensure around store with
  | .error stop => stop.access
  | .ok (loaded, lines) =>
    { outcome := if loaded.refuses path then .error .unsupported else .ok (answer (loaded.at path))
      store := .loaded loaded
      lines }

def get (around : Surroundings) (store : Store) (path : String) : Access Value :=
  readAt around store path id

/-- Whether the value at a path holds as a condition. -/
def has (around : Surroundings) (store : Store) (path : String) : Access Bool :=
  readAt around store path Value.isTruthy

def all (around : Surroundings) (store : Store) : Access Value :=
  read around store (·.effective)

def origin (around : Surroundings) (store : Store) : Access (Option String) :=
  read around store (·.origin)

/-- Settings after one more layer of the program's own, with what has gone
wrong. A layer that cannot be laid over the program's others changes nothing;
one that can be, but not under or over the other sources, is kept without
coming into effect. -/
def Loaded.extend (loaded : Loaded) (values : Value) (environment : Environment) :
    Except Fault Unit × Loaded :=
  if !values.isGiven || layerRefused loaded.programmatic values then (.error .unsupported, loaded)
  else
    let programmatic := layer loaded.programmatic values
    if combineRefused loaded.file programmatic environment then
      (.error .unsupported, { loaded with programmatic })
    else
      (.ok (),
        { loaded with programmatic, effective := combine loaded.file programmatic environment })

/-- Lays values over what the program has set. Whatever is wrong with them comes
after the settings are loaded. -/
def set (around : Surroundings) (store : Store) (values : Value) : Access Unit :=
  match ensure around store with
  | .error stop => stop.access
  | .ok (loaded, lines) =>
    let (outcome, extended) := loaded.extend values around.environment
    { outcome, store := .loaded extended, lines }

/-- Forgets everything; the next access loads anew. -/
def reset : Store := .unloaded { file := empty, origin := none }

end NamedArguments.Settings
