import NamedArguments.Binary64.Notation
import NamedArguments.Value.Family

/-!
The values that a calling program passes: keys and values of its keyword
mappings, elements of schema lists, and settings. Lists and objects have an
identity of their own, symbols and functions are nothing but one; two values
may look alike and still be different.
-/
namespace NamedArguments

/-- What tells one list or object from another. -/
inductive Identity where
  /-- An object known by a name throughout a program. -/
  | named (id : String)
  /-- A list or object written out in place; each has its own serial number. -/
  | written (serial : Nat)
  /-- An object made by laying settings over one another. -/
  | merged
deriving DecidableEq, Repr

/-- A value of the calling program. -/
inductive Value where
  | undefined
  | null
  | bool (b : Bool)
  | number (x : Binary64)
  | bigint (n : Int)
  | text (s : String)
  | symbol (id : String) (description : Option String)
  /-- The marker for "no argument supplied". It is a symbol. -/
  | absent
  | function (id : String)
  /-- A function of the language itself, met through inherited members. -/
  | builtin (name : String)
  | list (identity : Identity) (items : List Value)
  /-- Own members in enumeration order, and the object whose members are
  inherited: null where nothing is. -/
  | object (identity : Identity) (parent : Value) (members : List (String × Value))
  /-- The object from which the instances of a family inherit. It has no
  enumerable members. -/
  | ancestor (family : Family)
deriving Repr

instance : Inhabited Value := ⟨.undefined⟩

/-- Own members, in enumeration order. -/
abbrev Members := List (String × Value)

/-- An output slot; `none` marks one never assigned. -/
abbrev Slot := Option Value

namespace Value

/-- A plain object that the program writes out. -/
def plain (identity : Identity) (members : Members) : Value :=
  .object identity (.ancestor .record) members

/-- The name that a value's basic kind goes by. -/
def kind : Value → String
  | .undefined => "undefined"
  | .bool _ => "boolean"
  | .number _ => "number"
  | .bigint _ => "bigint"
  | .text _ => "string"
  | .symbol .. | .absent => "symbol"
  | .function _ | .builtin _ | .ancestor .function => "function"
  | .null | .list .. | .object .. | .ancestor _ => "object"

/-- Neither null nor undefined. -/
def isGiven : Value → Bool
  | .undefined | .null => false
  | _ => true

/-- A value where one is given, a default where none is. -/
def orElse (v : Value) (default : Value) : Value := if v.isGiven then v else default

/-- What a condition makes of a value. -/
def isTruthy : Value → Bool
  | .undefined | .null => false
  | .bool b => b
  | .number x => x.isTruthy
  | .bigint n => n != 0
  | .text s => s != ""
  | _ => true

/-- Whether a value is the marker for "no argument supplied". -/
def isAbsent : Value → Bool
  | .absent => true
  | _ => false

/-- Objects proper, which neither lists nor functions are. The ancestor of lists is
itself a list, and that of functions a function. -/
def isRecord : Value → Bool
  | .object .. => true
  | .ancestor family => family ≠ .list && family ≠ .function
  | _ => false

/-- Whether members can be inherited from a value. -/
def isParent : Value → Bool
  | .list .. | .object .. | .ancestor _ | .function _ | .builtin _ => true
  | _ => false

/-- The values that a value runs through where a list is expected: a list's
items, a text's characters, and the contents of a collection; maps and sets are
empty as programs write them out. `none` where it is no sequence. -/
def sequence? : Value → Option (List Value)
  | .list _ items => some items
  | .text s => some (s.toList.map fun c => .text (String.singleton c))
  | .object _ (.ancestor .map) _ | .object _ (.ancestor .set) _ => some []
  | .object _ (.ancestor .octets) members => some [(members.lookup "0").getD (.number (.ofNat 0))]
  | _ => none

end Value
end NamedArguments
