import NamedArguments.ArgumentMap
import NamedArguments.Value.Member

/-!
Arguments from the own members of a record, keyed by their names in enumeration
order.
-/
namespace NamedArguments.ArgumentMap

/-- Arguments from members that are there already. -/
def ofMembers (members : Members) : ArgumentMap :=
  ofList (members.map fun member => (.text member.1, member.2))

/-- Arguments from a record whose members are defined one after the other. -/
def ofRecord (pairs : List (String × Value)) : ArgumentMap := ofMembers (Members.ofList pairs)

end NamedArguments.ArgumentMap
