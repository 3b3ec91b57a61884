import NamedArguments.Schema

/-!
Schemas put together step by step. A builder is a value: each step gives a new
one, so a partial schema can be extended in several directions. A repeated
keyword is refused by the step that adds it.
-/
namespace NamedArguments

/-- The keys added so far and the last word on other keys. -/
structure Builder where
  requiredKeys : List Value
  optionalKeys : List Value
  others : Value

namespace Builder

def empty : Builder := { requiredKeys := [], optionalKeys := [], others := .bool false }

/-- The keys that later steps may not add again. -/
def declared (b : Builder) : List Value := b.requiredKeys ++ b.optionalKeys

/-- The fault of the first key that is declared already or stands earlier in
the same step. Saying so takes the key's name, which not every key has. -/
def firstRepeat (declared : List Value) : List Value → Option Fault
  | [] => none
  | key :: rest =>
    if key.inKeys declared then
      match Keyword.ofValue? key with
      | some keyword => some (.schema (.alreadyDeclared keyword))
      | none => some (.ofNonKeyword key)
    else firstRepeat (key :: declared) rest

/-- Appends required keys. -/
def addRequired (b : Builder) (keys : List Value) : Except Fault Builder :=
  match firstRepeat b.declared keys with
  | some fault => .error fault
  | none => .ok { b with requiredKeys := b.requiredKeys ++ keys }

/-- Appends optional keys. -/
def addOptional (b : Builder) (keys : List Value) : Except Fault Builder :=
  match firstRepeat b.declared keys with
  | some fault => .error fault
  | none => .ok { b with optionalKeys := b.optionalKeys ++ keys }

/-- Allows or forbids other keys; saying nothing allows them. -/
def setOthers (b : Builder) (allowed : Value) : Builder :=
  { b with others := if allowed matches .undefined then .bool true else allowed }

/-- Checks and defines the schema. -/
def finish (b : Builder) : Except Fault Schema :=
  Schema.define (.list .merged b.requiredKeys) (.list .merged b.optionalKeys) b.others

end Builder
end NamedArguments
