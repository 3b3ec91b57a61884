import NamedArguments.Fault
import NamedArguments.Value.Key

/-!
Schemas: the keywords that a function declares, required ones first, and
whether it takes others as well. A schema is valid when every declared key is a
keyword and none is declared twice. Schemas that a program assembles by itself
are not checked and may hold anything.
-/
namespace NamedArguments

/-- One half of a schema: a list of keys, or something that is no list. -/
inductive Part where
  | keys (ks : List Value)
  | other (v : Value)

namespace Part

def ofValue : Value → Part
  | .list _ items => .keys items
  | v => .other v

/-- The keys that a part runs through where it is copied. -/
def sequence? : Part → Option (List Value)
  | .keys ks => some ks
  | .other v => v.sequence?

/-- The keys that a walk over a part visits. -/
def visited? : Part → Option (List Value)
  | .keys ks => some ks
  | .other v => v.visited?

/-- The length that a part claims; asking an absent part is refused. -/
def extent? : Part → Option Extent
  | .keys ks => some (.count ks.length)
  | .other v => v.length?.map .other

/-- The extent that slots behind a part are counted from. -/
def base (part : Part) : Extent := part.extent?.getD (.count 0)

end Part

/-- Declared keywords: a required half and an optional one. -/
structure Schema where
  required : Part
  optional : Part
  /-- Whether keys outside the schema may remain; any value, read as a condition. -/
  others : Value

namespace Schema

/-- A schema whose halves are lists. -/
def ofLists (required optional : List Value) (others : Value) : Schema :=
  { required := .keys required, optional := .keys optional, others }

/-- Required keys followed by optional ones, in declaration order. -/
def keywords (schema : Schema) : Except Fault (List Value) :=
  match schema.required.sequence?, schema.optional.sequence? with
  | some required, some optional => .ok (required ++ optional)
  | _, _ => .error .unsupported

/-- How many keywords a schema declares; a fault where its halves claim lengths
that do not add up. -/
def total (schema : Schema) : Except Fault Extent :=
  match schema.required.extent?, schema.optional.extent? with
  | some required, some optional =>
    match required.add? optional with
    | some sum => .ok sum
    | none => .error .unsupported
  | _, _ => .error .unsupported

/-- The first key that is no keyword or stands among those seen before it. -/
def firstFault (seen : List Value) : List Value → Option SchemaFault
  | [] => none
  | key :: rest =>
    match Keyword.ofValue? key with
    | none => some (.notKeyword key.kind)
    | some keyword =>
      if key.inKeys seen then some (.repeated keyword) else firstFault (key :: seen) rest

/-- Refuses a schema unless every declared key is a keyword and all differ. -/
def validate (schema : Schema) : Except Fault Unit :=
  match schema.keywords with
  | .error fault => .error fault
  | .ok keys =>
    match firstFault [] keys with
    | some fault => .error (.schema fault)
    | none => .ok ()

/-- The keys of a half as given to a definition; a half left out is empty. -/
def givenKeys (v : Value) : Except Fault (List Value) :=
  if v.isGiven then
    match v.sequence? with
    | some keys => .ok keys
    | none => .error .unsupported
  else .ok []

/-- Defines a schema from lists, which it copies, and checks it. -/
def define (required optional others : Value) : Except Fault Schema :=
  match givenKeys required with
  | .error fault => .error fault
  | .ok requiredKeys =>
    match givenKeys optional with
    | .error fault => .error fault
    | .ok optionalKeys =>
      let schema := ofLists requiredKeys optionalKeys (others.orElse (.bool false))
      match schema.validate with
      | .error fault => .error fault
      | .ok () => .ok schema

end Schema
end NamedArguments
