import NamedArguments.Extraction
import NamedArguments.Registry

/-!
Functions that take their arguments as a keyword mapping. Each call extracts
into a fresh buffer, which consumes the matched keys, and hands the buffer to
the implementation. The number of slots is fixed when the function is made,
while its schema object may still grow.
-/
namespace NamedArguments

open Settings (Surroundings Store)

/-- A wrapped function, with the schema object it refers to. -/
structure NamedFunction where
  name : String
  schema : SchemaRef
  slots : Extent

/-- What a wrapped function does with its slots and the found count, in a world
that it may change. -/
abbrev Implementation (ω α : Type) := Buffer → Nat → ω → Except Fault α × ω

namespace NamedFunction

/-- Makes a function of a schema object. The schema is registered first, and
stays so even if it turns out to have no length. -/
def make (registry : Registry) (shelf : Shelf) (name : String) (schema : SchemaRef) :
    Except Fault NamedFunction × Registry :=
  let registered := registry.register name schema
  match (shelf.schema schema).total with
  | .error fault => (.error fault, registered)
  | .ok slots => (.ok { name, schema, slots }, registered)

/-- What a call leaves behind. -/
structure Result (σ ω α : Type) where
  outcome : Except Fault α
  mapping : σ
  world : ω
  store : Store
  lines : List Line

/-- Lists are at most this long. -/
def greatestLength : Nat := Nat.pow 2 32 - 1

/-- The fresh buffer of a function: as many slots as the schema had keywords
when the function was made. What is no number becomes the buffer's only item. -/
def freshBuffer (slots : Extent) : Except Fault Buffer :=
  match slots with
  | .count n => if n ≤ greatestLength then .ok (.unassigned n) else .error .invalidLength
  | .other (.number _) => .error .invalidLength
  | .other v => .ok (.ofList [some v])

/-- Calls a function with a mapping. The implementation is run on the buffer once
the extraction has gone through. -/
def call {σ ω α : Type} (f : NamedFunction) (implementation : Implementation ω α) (shelf : Shelf)
    (around : Surroundings) (store : Store) (m : Option (Mapping σ)) (state : σ) (world : ω) :
    Result σ ω α :=
  match freshBuffer f.slots with
  | .error fault => { outcome := .error fault, mapping := state, world, store, lines := [] }
  | .ok fresh =>
    let extracted :=
      Extraction.underSettings around store m (shelf.schema f.schema) (some fresh) .silent state
    let (outcome, world) :=
      match extracted.outcome with
      | .error fault => (.error fault, world)
      | .ok found => implementation (extracted.buffer.getD fresh) found world
    { outcome, mapping := extracted.mapping, world, store := extracted.store
      lines := extracted.lines }

end NamedFunction
end NamedArguments
