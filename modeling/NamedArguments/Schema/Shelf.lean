import NamedArguments.Schema

/-!
The schemas of a running program, each an object of its own. Defined schemas
are frozen; those that a program assembles by itself can still grow, and
whoever holds one sees it grow.
-/
namespace NamedArguments

/-- A schema as an object. -/
structure HeldSchema where
  schema : Schema
  frozen : Bool

/-- The half of a schema that a key is added to. -/
inductive Half where
  | required
  | optional
deriving DecidableEq, Repr

namespace Schema

def half (schema : Schema) : Half → Part
  | .required => schema.required
  | .optional => schema.optional

def withHalf (schema : Schema) (which : Half) (part : Part) : Schema :=
  match which with
  | .required => { schema with required := part }
  | .optional => { schema with optional := part }

end Schema

/-- What a program passes on as a schema: an object, by its position, or nothing. -/
abbrev SchemaRef := Option Nat

/-- What stands in for a schema where there is none. Neither half can be asked
for anything, so whatever reads it fails. -/
def Schema.missing : Schema :=
  { required := .other .undefined, optional := .other .undefined, others := .undefined }

/-- All schema objects; an object goes by its position. -/
structure Shelf where
  held : List HeldSchema

namespace Shelf

def empty : Shelf := ⟨[]⟩

def get? (shelf : Shelf) (ref : SchemaRef) : Option HeldSchema := ref.bind (shelf.held[·]?)

/-- What a schema object declares at present. -/
def schema (shelf : Shelf) (ref : SchemaRef) : Schema :=
  ((shelf.get? ref).map HeldSchema.schema).getD .missing

/-- Adds an object and gives its position. -/
def add (shelf : Shelf) (held : HeldSchema) : Nat × Shelf :=
  (shelf.held.length, ⟨shelf.held ++ [held]⟩)

/-- Appends a key to one half of an object, in place, and gives the new length.
A frozen half refuses, and one that is no list unless it has a way of its own,
which answers nothing. -/
def push (shelf : Shelf) (ref : SchemaRef) (which : Half) (key : Value) :
    Except Fault (Value × Shelf) :=
  match ref, shelf.get? ref with
  | some id, some ⟨schema, frozen⟩ =>
    match schema.half which with
    | .keys ks =>
      if frozen then .error .unsupported
      else
        let grown := schema.withHalf which (.keys (ks ++ [key]))
        .ok (.number (.ofNat (ks.length + 1)), ⟨shelf.held.set id ⟨grown, false⟩⟩)
    | .other v =>
      if v.callable "push" = .program then .ok (.undefined, shelf) else .error .unsupported
  | _, _ => .error .unsupported

end Shelf
end NamedArguments
