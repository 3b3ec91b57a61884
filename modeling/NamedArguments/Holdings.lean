import NamedArguments.Program

/-!
Lists that a program holds and passes on. A list is an object: whoever holds it
sees it grow. A schema that a program assembles has such lists for its halves,
while one that is defined has frozen copies of the lists it is made from. Read
through their lists, the schemas of a program make up its shelf.
-/
namespace NamedArguments

/-- A list as an object. -/
structure HeldList where
  items : List Value
  frozen : Bool

/-- A schema whose halves are lists, each known by its position. -/
structure LinkedSchema where
  required : Nat
  optional : Nat
  others : Value
  frozen : Bool

namespace LinkedSchema

/-- The position of the list that is a half. -/
def half (linked : LinkedSchema) : Half → Nat
  | .required => linked.required
  | .optional => linked.optional

end LinkedSchema

/-- All lists and schemas that a program has. -/
structure Holdings where
  lists : List HeldList
  schemas : List LinkedSchema

/-- What is passed on where keys are expected: a list that is held, or some
other value. -/
inductive Passed where
  | list (id : Nat)
  | value (v : Value)

/-- What a schema is defined from. A builder has copied its keys already. -/
inductive Source where
  | lists (required optional : Passed) (others : Value)
  | table (entries : Passed) (required optional : Value)
  | builder (built : Builder)

/-- What a program does with its lists and schemas. -/
inductive Deed where
  /-- A list is written out. -/
  | list (items : List Value)
  /-- A key is added to a list, which may be a half of schemas. -/
  | append (list : Nat) (key : Value)
  /-- A schema is put together of lists without being checked. -/
  | assemble (required optional : Nat) (others : Value)
  | define (source : Source)

namespace Holdings

def empty : Holdings := { lists := [], schemas := [] }

/-- The items of a list at present. -/
def items (held : Holdings) (id : Nat) : List Value := ((held.lists[id]?).map HeldList.items).getD []

/-- What a schema declares at present. -/
def schema (held : Holdings) (linked : LinkedSchema) : Schema :=
  .ofLists (held.items linked.required) (held.items linked.optional) linked.others

/-- The schemas as they are read at present. -/
def shelf (held : Holdings) : Shelf :=
  ⟨held.schemas.map fun linked => ⟨held.schema linked, linked.frozen⟩⟩

/-- The value that is passed on, a list with the items it has by then. -/
def passed (held : Holdings) : Passed → Value
  | .list id => .list (.written id) (held.items id)
  | .value v => v

/-- What a definition finds. -/
def recipe (held : Holdings) : Source → Recipe
  | .lists required optional others =>
    .lists (held.passed required) (held.passed optional) others
  | .table entries required optional => .table (held.passed entries) required optional
  | .builder built => .builder built

/-- A list that is not frozen takes another key at its end. -/
def append (held : Holdings) (id : Nat) (key : Value) : Except Fault Holdings :=
  match held.lists[id]? with
  | some ⟨items, false⟩ =>
    .ok { held with lists := held.lists.set id ⟨items ++ [key], false⟩ }
  | _ => .error .unsupported

/-- A frozen list with the keys of a half. -/
def copy (half : Part) : HeldList := { items := half.sequence?.getD [], frozen := true }

/-- Adds a defined schema, which is frozen, with lists of its own. -/
def adopt (held : Holdings) (schema : Schema) : Holdings :=
  { lists := held.lists ++ [copy schema.required, copy schema.optional]
    schemas := held.schemas ++
      [{ required := held.lists.length, optional := held.lists.length + 1, others := schema.others
         frozen := true }] }

/-- The holdings after a deed. One that fails changes nothing, and only lists
that are held can be assembled. -/
def perform (held : Holdings) : Deed → Holdings
  | .list items => { held with lists := held.lists ++ [⟨items, false⟩] }
  | .append id key =>
    match held.append id key with
    | .ok after => after
    | .error _ => held
  | .assemble required optional others =>
    if required < held.lists.length ∧ optional < held.lists.length then
      { held with schemas := held.schemas ++ [{ required, optional, others, frozen := false }] }
    else held
  | .define source =>
    match (held.recipe source).schema with
    | .ok schema => held.adopt schema
    | .error _ => held

/-- The holdings after deeds. -/
def after (held : Holdings) (deeds : List Deed) : Holdings := deeds.foldl perform held

end Holdings
end NamedArguments
