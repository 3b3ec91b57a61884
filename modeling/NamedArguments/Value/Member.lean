import NamedArguments.Value.OwnMembers
import NamedArguments.Text.Units

/-!
Reading and assigning members of values. A member that a value does not have
itself is looked for along the chain of its parents, and the parent too goes by
a name, under which it is read and replaced. Two sorts of members refuse: those
worked out from an instance, when anything else is asked for them, and those of
functions that objects below them may not be given again.
-/
namespace NamedArguments

/-- What the ancestor of a family itself holds under a name. -/
def Family.held? (family : Family) (name : String) : Option Value :=
  if name = "constructor" then some (.builtin family.className)
  else if family.functionNames.contains name then some (.builtin name)
  else
    match family, name with
    | .failure, "name" => some (.text "Error")
    | .failure, "message" => some (.text "")
    | .pattern, "source" => some (.text "(?:)")
    | .pattern, "flags" => some (.text "")
    | .octets, "BYTES_PER_ELEMENT" => some (.number (.ofNat 1))
    | _, _ => none

/-- What the ancestor of a family offers under a name, held or inherited. -/
def Family.offers? (family : Family) (name : String) : Option Value :=
  family.line.findSome? (·.held? name)

/-- Whether an ancestor of the family holds a member that may not be given
again below it. -/
def Family.settles (family : Family) (name : String) : Bool :=
  family.line.contains .octets && name == "BYTES_PER_ELEMENT"

namespace Value

/-- The letters of the options that a pattern's own members switch on. -/
def patternFlags (members : Members) : String :=
  String.join (Family.patternOptions.filterMap fun option =>
    match members.lookup option.1 with
    | some v => if v.isTruthy then some option.2 else none
    | none => none)

/-- What an instance of a family, given by its own members, has besides them
without listing it. Each family has one instance that programs write out. -/
def unlisted? (parent : Value) (members : Members) (name : String) : Option Value :=
  match parent, name with
  | .ancestor .map, "size" | .ancestor .set, "size" => some (.number (.ofNat 0))
  | .ancestor .failure, "message" => some (.text "x")
  | .ancestor .failure, "stack" => some (.text "Error: x")
  | .ancestor .pattern, "source" => some (.text "x")
  | .ancestor .pattern, "flags" => some (.text (patternFlags members))
  | .ancestor .pattern, "lastIndex" => some (.number (.ofNat 0))
  | .ancestor .pattern, option =>
    if Family.pattern.workedOutNames.contains option then some (.bool false) else none
  | .ancestor .octets, "length" | .ancestor .octets, "byteLength" => some (.number (.ofNat 1))
  | .ancestor .octets, "byteOffset" => some (.number (.ofNat 0))
  | .ancestor .octets, "buffer" => some (.object .merged (.ancestor .memory) [])
  | .ancestor .memory, "byteLength" | .ancestor .memory, "maxByteLength" =>
    some (.number (.ofNat 1))
  | .ancestor .memory, "resizable" | .ancestor .memory, "detached" => some (.bool false)
  | _, _ => none

/-- The first definition of a name on a value and along its parents. -/
def find? : Value → String → Option Value
  | .object _ parent members, name =>
    match members.lookup name with
    | some v => some v
    | none => (unlisted? parent members name).or (parent.find? name)
  | .list _ items, name =>
    if name = "length" then some (.number (.ofNat items.length))
    else match (Text.position? name).bind (items[·]?) with
      | some v => some v
      | none => Family.list.offers? name
  | .function _, name =>
    if name = "name" then some (.text "")
    else if name = "length" then some (.number (.ofNat 0))
    else Family.function.offers? name
  | .builtin own, name =>
    if name = "name" then some (.text own) else Family.function.offers? name
  | .ancestor family, name => family.offers? name
  | _, _ => none

/-- The object from which a value inherits directly. -/
def parent : Value → Value
  | .object _ parent _ => parent
  | .list .. => .ancestor .list
  | .function _ | .builtin _ => .ancestor .function
  | .ancestor family => (family.above.map .ancestor).getD .null
  | _ => .undefined

/-- Whether the chain of parents ends in the ordinary one, which offers every
value its own parent under a name. -/
def isRooted : Value → Bool
  | .object _ parent _ => parent.isRooted
  | .list .. | .function _ | .builtin _ | .ancestor _ => true
  | _ => false

/-- Whether a value inherits from the ancestor of failures. -/
def isFailure : Value → Bool
  | .object _ (.ancestor family) _ => family = .failure
  | .object _ parent _ => parent.isFailure
  | _ => false

/-- The name under which a value's parent is read and replaced. -/
def parentName : String := "__proto__"

/-- The value of a member, own or inherited; undefined where there is none. -/
def member (v : Value) (name : String) : Value :=
  match v.find? name with
  | some found => found
  | none => if name = parentName ∧ v.isRooted = true then v.parent else .undefined

/-- The family of instances that a member is worked out from, if it is such a
member. -/
def workedOutBy? : Value → String → Option Family
  | .object _ parent members, name =>
    if (members.lookup name).isSome then none else parent.workedOutBy? name
  | .function _, name | .builtin _, name => Family.function.worksOut? name
  | .ancestor family, name => family.worksOut? name
  | _, _ => none

/-- Whether a value answers for the members worked out from a family: its
instances do, and the ancestor of patterns does so too. -/
def answersFor (v : Value) (family : Family) : Bool :=
  match v with
  | .object _ (.ancestor own) _ => own.line.contains family
  | .ancestor own => own = .pattern && family = .pattern
  | _ => false

/-- Whether reading a member is refused. -/
def refusesReading (v : Value) (name : String) : Bool :=
  match v.workedOutBy? name with
  | some family => !v.answersFor family
  | none => false

/-- Whether objects below a value may not be given a member of a name. -/
def settles : Value → String → Bool
  | .object _ parent members, name => (members.lookup name).isNone && parent.settles name
  | .function _, name | .builtin _, name => name == "name" || name == "length"
  | .ancestor family, name => family.settles name
  | _, _ => false

/-- Own members of an object, the only ones that a copy of it takes along. -/
def ownMembers : Value → Members
  | .object _ _ members => members
  | _ => []

/-- A list's items under their positions, starting at `n`. -/
def numbered (n : Nat) : List Value → Members
  | [] => []
  | v :: rest => (toString n, v) :: numbered (n + 1) rest

/-- The own enumerable members of any value: a list's items and a text's units
go by their positions. -/
def enumerable : Value → Members
  | .object _ _ members => members
  | .list _ items => numbered 0 items
  | .text s => numbered 0 ((Text.toUnits s.toList).map fun u =>
      .text (String.ofList (Text.ofUnits [u])))
  | _ => []

/-- Whether an assignment under the parent's name replaces the parent. It does
unless a member of that name is met first. -/
def replacesParent (v : Value) (name : String) : Bool :=
  name == parentName && (v.find? name).isNone && v.isRooted

/-- The parent that an assigned value makes: primitive values change nothing. -/
def newParent (old : Value) : Value → Value
  | .null => .null
  | v => if v.isParent then v else old

/-- An object after an assignment to one of its members. -/
def assign (v : Value) (name : String) (new : Value) : Value :=
  match v with
  | .object identity parent members =>
    if v.replacesParent name then .object identity (newParent parent new) members
    else .object identity parent (Members.define members name new)
  | other => other

/-- The number of items that a value claims to have; asking an absent value, or
one that cannot answer, is refused. -/
def length? : Value → Option Value
  | .undefined | .null => none
  | .list _ items => some (.number (.ofNat items.length))
  | .text s => some (.number (.ofNat (Text.unitCount s.toList)))
  | v => if v.refusesReading "length" then none else some (v.member "length")

/-- What a value has under the name of a function it could be asked to run. -/
inductive Callable where
  /-- A function of the program's own, of which nothing is known but that it
  answers nothing. -/
  | program
  /-- A function of the language. -/
  | language
  /-- Nothing that can be run. -/
  | nothing
deriving DecidableEq

def callable (v : Value) (name : String) : Callable :=
  match v.find? name with
  | some (.function _) => .program
  | some (.builtin _) => .language
  | _ => .nothing

/-- Whether a sequence can make another one of its own kind, which starts from
its constructor: that has to be an object, if it is anything. -/
def canMakeAnother (v : Value) : Bool :=
  let constructor := v.member "constructor"
  constructor.isParent || constructor matches .undefined

/-- The values that a walk over a value visits; `none` where it offers no walk.
A walk of the program's own visits nothing. -/
def visited? (v : Value) : Option (List Value) :=
  match v.callable "forEach" with
  | .program => some []
  | .language => v.sequence?
  | .nothing => none

end Value
end NamedArguments
