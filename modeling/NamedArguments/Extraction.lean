import NamedArguments.Extraction.Passes
import NamedArguments.Log.Logger

/-!
Extraction of keyword arguments from a mapping into a buffer. An extraction
that finds the settings and the buffer in order ends in one of three ways: a
required keyword is missing, keys are left over, or it counts the keywords
found. Whatever was removed or written before a fault stays so.
-/
namespace NamedArguments

open Settings (Surroundings Store)

namespace Extraction

/-- What a caller says about writing and consuming; saying nothing means to do
either exactly when there is a buffer. -/
structure Request where
  write : Value
  consume : Value

/-- A request that says nothing. -/
def Request.silent : Request := { write := .undefined, consume := .undefined }

def Request.modes (request : Request) (buffer : Option Buffer) : Modes :=
  { write := (request.write.orElse (.bool buffer.isSome)).isTruthy
    consume := (request.consume.orElse (.bool buffer.isSome)).isTruthy }

variable {σ : Type}

/-- How an extraction ends, what it leaves behind, and what it reports. -/
structure Ending (σ : Type) where
  outcome : Except Fault Nat
  mapping : σ
  buffer : Option Buffer
  report : Option String

/-- The fault of a buffer that does not fit. -/
def bufferFault (modes : Modes) (buffer : Option Buffer) (total : Extent) : Option SchemaFault :=
  match buffer with
  | none => if modes.write then some .missingBuffer else none
  | some slots =>
    if total.isCount slots.length then none else some (.bufferLength slots.length total)

/-- The report of a success. -/
def summary (modes : Modes) (found : Nat) (total : Extent) : String :=
  (if modes.consume then "extracted " else "probed ") ++ toString found ++ "/" ++ total.text ++
    " keywords" ++ if modes.write then "" else " without recording values"

/-- Ends an extraction that found everything it needs. When values are written,
all slots from the found count on are cleared. -/
def succeed (modes : Modes) (total : Extent) (now : Progress σ) : Ending σ :=
  { outcome := .ok now.found
    mapping := now.mapping
    buffer :=
      if modes.write then
        now.buffer.map fun slots => clear slots now.found (total.beyond now.found)
      else now.buffer
    report := some (summary modes now.found total) }

/-- Ends an extraction with a fault. -/
def failWith (now : Progress σ) (fault : Fault) (report : Option String) : Ending σ :=
  { outcome := .error fault, mapping := now.mapping, buffer := now.buffer, report }

/-- Ends an extraction at a required key that is missing. The report names the
key; where it has no name, that is the fault and nothing is reported. -/
def missingKey (now : Progress σ) (key : Value) : Ending σ :=
  match key.printedName with
  | .error fault => failWith now fault none
  | .ok name =>
    failWith now (Fault.raised (Fault.ofMissing key))
      (some ("missing required keyword '" ++ name ++ "'"))

/-- Ends an extraction that leaves keys over. -/
def leftOver (now : Progress σ) (keys : List Value) : Ending σ :=
  failWith now (Fault.raised (Fault.ofUnknown keys))
    (some (toString keys.length ++ " unknown keyword(s) left after extraction"))

/-- Ends an extraction that has looked for all declared keys: unless the schema
takes others, none may be left. -/
def checkRest (mapping : Mapping σ) (modes : Modes) (schema : Schema) (total : Extent)
    (now : Progress σ) : Ending σ :=
  if schema.others.isTruthy then succeed modes total now
  else
    match askSize mapping modes now with
    | (false, asked) => succeed modes total asked
    | (true, asked) =>
      match schema.keywords with
      | .error fault => failWith asked fault none
      | .ok declared =>
        let (unknown, listed) := askKeys mapping declared asked
        leftOver listed unknown

/-- The optional keys and the check for others, after all required keys are
found. Without a mapping there is nothing to look for or to be left. -/
def afterRequired (m : Option (Mapping σ)) (modes : Modes) (schema : Schema) (total : Extent)
    (now : Progress σ) : Ending σ :=
  match m with
  | none => succeed modes total now
  | some mapping =>
    match schema.optional.visited? with
    | none => failWith now .unsupported none
    | some optional =>
      match optionalPass m modes schema.required.base 0 optional now with
      | (after, true) => checkRest mapping modes schema total after
      | (after, false) => failWith after .unsupported none

/-- Extraction once the settings are read: `checked` says whether the buffer is
held against the schema. -/
def run (checked : Bool) (m : Option (Mapping σ)) (modes : Modes) (schema : Schema)
    (total : Extent) (buffer : Option Buffer) (state : σ) : Ending σ :=
  let start : Progress σ := { mapping := state, buffer, found := 0 }
  match if checked then bufferFault modes buffer total else none with
  | some fault => failWith start (.schema fault) none
  | none =>
    match schema.required.visited? with
    | none => failWith start .unsupported none
    | some required =>
      match requiredPass m modes 0 required start with
      | (after, some key) => missingKey after key
      | (after, none) => afterRequired m modes schema total after

/-- Whether settings ask for buffers to be checked. -/
def checksBuffers (loaded : Settings.Loaded) : Bool :=
  !(loaded.at "checks" matches .text "none")

/-- The logger of extractions. -/
def logger : Logger := { scope := "keywords", level := .undefined, ownWriter := false }

/-- The lines that a report makes under settings in use. -/
def reportLines (around : Surroundings) (loaded : Settings.Loaded) : Option String → List Line
  | some message => (logger.write around (.loaded loaded) .debug message).lines
  | none => []

/-- An extraction's ending together with the settings and the lines written. -/
structure Result (σ : Type) where
  outcome : Except Fault Nat
  mapping : σ
  buffer : Option Buffer
  store : Store
  lines : List Line

/-- Extracts keyword arguments. Settings are read once the schema has told its
length, and the mapping is asked nothing before the buffer is found to fit. -/
def underSettings (around : Surroundings) (store : Store) (m : Option (Mapping σ))
    (schema : Schema) (buffer : Option Buffer) (request : Request) (state : σ) : Result σ :=
  let modes := request.modes buffer
  match schema.total with
  | .error fault => { outcome := .error fault, mapping := state, buffer, store, lines := [] }
  | .ok total =>
    match Settings.ensure around store with
    | .error stop =>
      { outcome := .error stop.fault, mapping := state, buffer
        store := .unloaded stop.remains, lines := stop.lines }
    | .ok (loaded, lines) =>
      let ending := run (checksBuffers loaded) m modes schema total buffer state
      { outcome := ending.outcome, mapping := ending.mapping, buffer := ending.buffer
        store := .loaded loaded, lines := lines ++ reportLines around loaded ending.report }

end Extraction
end NamedArguments
