import NamedArguments.Buffer
import NamedArguments.Mapping
import NamedArguments.Schema

/-!
The passes of an extraction. Required keys are looked up in schema order up to
the first that is missing, then all optional ones; a found key is removed when
keys are consumed, and every answer goes to the key's slot when values are
written. Unless the schema takes other keys, none may be left over. At the end
all slots from the found count on are cleared.
-/
namespace NamedArguments

/-- What an extraction does besides counting. -/
structure Modes where
  /-- Values go to the buffer. -/
  write : Bool
  /-- Found keys are removed from the mapping. -/
  consume : Bool
deriving DecidableEq, Repr

namespace Extraction

variable {σ : Type}

/-- The moving parts of an extraction. -/
structure Progress (σ : Type) where
  mapping : σ
  buffer : Option Buffer
  found : Nat

/-- Looks a key up and removes it if it is to be consumed. Without a mapping
nothing is found. -/
def lookUp (m : Option (Mapping σ)) (consume : Bool) (key : Value) (state : σ) : Value × σ :=
  match m with
  | none => (.absent, state)
  | some m =>
    let (v, after) := m.lookup key state
    if consume && !v.isAbsent then (v, (m.erase key after).2) else (v, after)

/-- Assigns a slot, if values are written at all and there is such a slot. -/
def record (modes : Modes) (buffer : Option Buffer) (slot : Option Nat) (v : Value) :
    Option Buffer :=
  match slot with
  | some index => if modes.write then buffer.map (·.write index v) else buffer
  | none => buffer

/-- Takes one key into its slot. -/
def visit (m : Option (Mapping σ)) (modes : Modes) (slot : Option Nat) (key : Value)
    (now : Progress σ) : Value × Progress σ :=
  let (v, after) := lookUp m modes.consume key now.mapping
  (v,
    { mapping := after
      buffer := record modes now.buffer slot v
      found := if v.isAbsent then now.found else now.found + 1 })

/-- Visits required keys; the second part is the one that is missing, if any. -/
def requiredPass (m : Option (Mapping σ)) (modes : Modes) :
    Nat → List Value → Progress σ → Progress σ × Option Value
  | _, [], now => (now, none)
  | index, key :: rest, now =>
    let (v, after) := visit m modes (some index) key now
    if v.isAbsent then (after, some key) else requiredPass m modes (index + 1) rest after

/-- Visits optional keys, whose slots stand behind those of the required half;
the second part says whether all slots could be worked out. One that cannot be
ends the pass once its key is looked up. -/
def optionalPass (m : Option (Mapping σ)) (modes : Modes) (base : Extent) :
    Nat → List Value → Progress σ → Progress σ × Bool
  | _, [], now => (now, true)
  | index, key :: rest, now =>
    match base.slot? index with
    | some slot => optionalPass m modes base (index + 1) rest (visit m modes slot key now).2
    | none => ({ now with mapping := (lookUp m modes.consume key now.mapping).2 }, false)

/-- How many keys may remain: none when they are consumed, else the found ones. -/
def allowance (modes : Modes) (found : Nat) : Nat := if modes.consume then 0 else found

/-- Asks the size, which shows whether too many keys are left. -/
def askSize (m : Mapping σ) (modes : Modes) (now : Progress σ) : Bool × Progress σ :=
  let (size, after) := m.size now.mapping
  (size.exceeds (allowance modes now.found), { now with mapping := after })

/-- Asks for the remaining keys and keeps those outside the schema. -/
def askKeys (m : Mapping σ) (declared : List Value) (now : Progress σ) :
    List Value × Progress σ :=
  let (keys, after) := m.keys now.mapping
  (keys.filter fun key => !key.inKeys declared, { now with mapping := after })

/-- Clears `count` slots from an index on. -/
def clear (buffer : Buffer) (index : Nat) : Nat → Buffer
  | 0 => buffer
  | count + 1 => clear (buffer.write index .absent) (index + 1) count

end Extraction
end NamedArguments
