import NamedArguments.Value.Written

/-!
The name of a value's type, as messages give it. An object goes by the name of
its constructor, read like any member; the name is then written out as text,
which some values refuse.
-/
namespace NamedArguments.Value

/-- The name of a constructor, if it has one. -/
def constructorName (v : Value) : Value :=
  let constructor := v.member "constructor"
  if constructor.isGiven then constructor.member "name" else .undefined

/-- The name of a value's type; `none` where it cannot be written. -/
def typeName? (v : Value) : Option String :=
  match v with
  | .null => some "null"
  | .list .. | .ancestor .list => some "Array"
  | .ancestor .function => some v.kind
  | .object .. | .ancestor _ => (v.constructorName.orElse (.text "Object")).written?
  | other => some other.kind

end NamedArguments.Value
