import NamedArguments.Value.Member

/-!
Values written into a text. Plain values have a text each; a list is written by
its items. An object is written as the plain value that it stands for, which is
what one of two functions answers, its own or its family's: one for text and
one for numbers. An object that offers neither cannot be written; nor can a
symbol, or anything that holds one where a text is needed.
-/
namespace NamedArguments

/-- Which of its two functions an object is asked first. -/
inductive Aspect where
  | text
  | number
deriving DecidableEq, Repr

/-- What asking an object for a plain value comes to. -/
inductive Reply where
  | plain (v : Value)
  /-- There is no such function, or what it answers is an object again. -/
  | nothing
  | failure
deriving Repr

namespace Reply

/-- A reply that is a text, if there is one. -/
def ofText? : Option String → Reply
  | some s => .plain (.text s)
  | none => .failure

/-- The plain value of the first of two replies that gives one. A failure ends
the search. -/
def first? : Reply → Reply → Option Value
  | .plain v, _ => some v
  | .nothing, .plain v => some v
  | _, _ => none

end Reply

/-- The plain value that the two functions give, in the order of an aspect. -/
def Aspect.choose? (aspect : Aspect) (text number : Reply) : Option Value :=
  match aspect with
  | .text => text.first? number
  | .number => number.first? text

namespace Value

/-- The text of a function of the program's own, which does nothing. -/
def functionText : String := "() => \x7b\x7d"

/-- The text of the moment that dates count from, which is the one that
programs write out. -/
def epochText : String := "Thu Jan 01 1970 00:00:00 GMT+0000 (Coordinated Universal Time)"

/-- A failure's name and message put together. -/
def failureText (name message : String) : String :=
  if name = "" then message else if message = "" then name else name ++ ": " ++ message

/-- The text of instances that have none of their own. -/
def tagText (family : Family) : String := "[object " ++ family.tag ++ "]"

/-- The text of the ancestor of a family. Some ancestors are not of the family
themselves, so that its function for text refuses them. -/
def ancestorText? : Family → Option String
  | .list => some ""
  | .function => some "function () \x7b [native code] \x7d"
  | .failure => some "Error"
  | .pattern => some "/(?:)/"
  | .date | .octets | .machineList => none
  | family => some (tagText family)

/-- The text of an object's member: its own, or another where the object has
none. -/
def memberText? (texts : List (String × Option String)) (name other : String) : Option String :=
  (texts.lookup name).getD (some other)

/-- As `memberText?`, for a member that counts as `blank` when it is undefined. -/
def statedText? (members : Members) (texts : List (String × Option String))
    (name other blank : String) : Option String :=
  match members.lookup name with
  | some .undefined => some blank
  | _ => memberText? texts name other

/-- What the function for text that a family offers makes of an object, given by
its parent, its own members and their texts. Lists of octets leave it to a
function that joins their items. -/
def familyReply (parent : Value) (members : Members) (texts : List (String × Option String)) :
    Reply :=
  match parent with
  | .ancestor .failure =>
    .ofText? do
      let name ← statedText? members texts "name" "Error" "Error"
      let message ← statedText? members texts "message" "x" ""
      return failureText name message
  | .ancestor .pattern =>
    .ofText? do
      let source ← memberText? texts "source" "x"
      let flags ← memberText? texts "flags" (patternFlags members)
      return "/" ++ source ++ "/" ++ flags
  | .ancestor .octets =>
    match (Value.object .merged parent members).callable "join" with
    | .language => .ofText? (memberText? texts "0" "0")
    | .program => .plain .undefined
    | .nothing => .plain (.text (tagText .octets))
  | .ancestor .date => .plain (.text epochText)
  | .ancestor family => .plain (.text (tagText family))
  | _ => .plain (.text (tagText .record))

/-- What an object's function for text replies. -/
def textReply (parent : Value) (members : Members) (texts : List (String × Option String)) :
    Reply :=
  match (Value.object .merged parent members).callable "toString" with
  | .language => familyReply parent members texts
  | .program => .plain .undefined
  | .nothing => .nothing

/-- What an object's function for numbers replies. Dates count from their first
moment, and other families answer with the object itself. -/
def numberReply (parent : Value) (members : Members) : Reply :=
  match (Value.object .merged parent members).callable "valueOf", parent with
  | .language, .ancestor .date => .plain (.number (.ofNat 0))
  | .program, _ => .plain .undefined
  | _, _ => .nothing

/-- The text of a plain value. -/
def plainText? : Value → Option String
  | .undefined => some "undefined"
  | .null => some "null"
  | .bool b => some (if b then "true" else "false")
  | .number x => some x.text
  | .bigint n => some (toString n)
  | .text s => some s
  | _ => none

mutual

/-- A value written into a text; `none` for values that cannot be. -/
def written? : Value → Option String
  | .function _ => some functionText
  | .builtin name => some ("function " ++ name ++ "() \x7b [native code] \x7d")
  | .list _ items => (writtenItems? items).map (String.intercalate ",")
  | .object _ parent members =>
    (Aspect.text.choose? (textReply parent members (writtenMembers members))
      (numberReply parent members)).bind plainText?
  | .ancestor family => ancestorText? family
  | plain => plainText? plain
termination_by structural v => v

/-- A list's items in text; absent ones leave nothing. -/
def writtenItems? : List Value → Option (List String)
  | [] => some []
  | v :: rest => do
    let first ← if v.isGiven then written? v else some ""
    let others ← writtenItems? rest
    return first :: others
termination_by structural vs => vs

/-- Own members in text. -/
def writtenMembers : List (String × Value) → List (String × Option String)
  | [] => []
  | (name, v) :: rest => (name, written? v) :: writtenMembers rest
termination_by structural members => members

end

/-- The plain value that a value stands for, when it is asked in the order of
an aspect. -/
def plainValue? (aspect : Aspect) : Value → Option Value
  | .object _ parent members =>
    aspect.choose? (textReply parent members (writtenMembers members))
      (numberReply parent members)
  | .list identity items => (written? (.list identity items)).map .text
  | .function id => (written? (.function id)).map .text
  | .builtin name => (written? (.builtin name)).map .text
  | .ancestor family => (written? (.ancestor family)).map .text
  | plain => some plain

end Value
end NamedArguments
