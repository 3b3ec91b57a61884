import NamedArguments.Value.Arithmetic

/-!
Instances of classes as a program writes them out, with members of their own. A
list of octets has a single item, so it keeps whatever number is given for that
item as an octet and takes no member whose name is any other number.
-/
namespace NamedArguments

/-- The octet that a number is cut to: its whole part, counted modulo 256. -/
def Binary64.octet : Binary64 → Nat
  | finite negative units =>
    let whole := units / one % 256
    if negative then (256 - whole) % 256 else whole
  | _ => 0

namespace Value

/-- Whether a name is a number as messages print it. -/
def namesNumber (name : String) : Bool :=
  name == "-0" || (Text.number name.toList).text == name

/-- The only item of a list of octets that is given some members. -/
def octetItem (members : Members) : Value :=
  .number (.ofNat (((members.lookup "0").bind double?).getD (.ofNat 0)).octet)

/-- What a list of octets keeps of the members it is given. -/
def octetMembers (members : Members) : Members :=
  ("0", octetItem members) :: members.filter fun member => !namesNumber member.1

/-- An instance of a class with members of its own. -/
def instanceOf (className : String) (identity : Identity) (members : Members) : Value :=
  let family := Family.ofClass className
  let own := Members.ofList members
  .object identity (.ancestor family) (if family = .octets then octetMembers own else own)

end Value
end NamedArguments
