import NamedArguments.Schema.Shelf

/-!
The registry of schemas by function name. A name stands for what was registered
under it last. That may be no schema at all, and then the name stands for none,
as does a name that was never registered.
-/
namespace NamedArguments

/-- Names with what was registered under them, the latest first. -/
structure Registry where
  entries : List (String × SchemaRef)

namespace Registry

def empty : Registry := ⟨[]⟩

def register (registry : Registry) (name : String) (schema : SchemaRef) : Registry :=
  ⟨(name, schema) :: registry.entries⟩

def get (registry : Registry) (name : String) : SchemaRef :=
  (registry.entries.lookup name).join

end Registry
end NamedArguments
