import NamedArguments.ArgumentMap

/-!
What extraction asks of a keyword mapping: look a key up, remove it, give the
size and the remaining keys. An argument map answers as mappings should; a
mapping of the host may answer anything, and may change with each question.
-/
namespace NamedArguments

/-- The size that a mapping answers: an exact count, or whatever number a host
gives. -/
inductive MappingSize where
  | count (n : Nat)
  | given (x : Binary64)

/-- Whether a size is above a number. -/
def MappingSize.exceeds (size : MappingSize) (permitted : Nat) : Bool :=
  match size with
  | .count n => decide (permitted < n)
  | .given x => x.exceeds permitted

/-- A keyword mapping with states `σ`. Each answer comes with the state after it. -/
structure Mapping (σ : Type) where
  lookup : Value → σ → Value × σ
  erase : Value → σ → Bool × σ
  size : σ → MappingSize × σ
  keys : σ → List Value × σ

/-- The mapping that an argument map is. -/
def ArgumentMap.mapping : Mapping ArgumentMap where
  lookup key args := (args.lookup key, args)
  erase key args := args.erase key
  size args := (.count args.size, args)
  keys args := (args.keys, args)

/-- One question put to a mapping. -/
inductive Call where
  | lookup (key : Value)
  | erase (key : Value)
  | size
  | keys

/-- A mapping that notes the questions put to it. -/
def Mapping.recorded {σ : Type} (m : Mapping σ) : Mapping (σ × List Call) where
  lookup key state := let (v, after) := m.lookup key state.1; (v, after, state.2 ++ [.lookup key])
  erase key state := let (b, after) := m.erase key state.1; (b, after, state.2 ++ [.erase key])
  size state := let (n, after) := m.size state.1; (n, after, state.2 ++ [.size])
  keys state := let (ks, after) := m.keys state.1; (ks, after, state.2 ++ [.keys])

/-- How a host's mapping departs from the argument map below it. -/
structure HostManners where
  /-- Removing does nothing and answers no. -/
  sticky : Bool
  /-- The number always given as size. -/
  size : Option Binary64

/-- A host's mapping over an argument map. -/
def hostMapping (manners : HostManners) : Mapping ArgumentMap where
  lookup key args := (args.lookup key, args)
  erase key args := if manners.sticky then (false, args) else args.erase key
  size args := ((manners.size.map .given).getD (.count args.size), args)
  keys args := (args.keys, args)

end NamedArguments
