import NamedArguments.Keyword
import NamedArguments.Schema.Extent
import NamedArguments.Value.TypeName

/-!
What can go wrong: arguments that the caller left out or did not have to pass,
keys that name nothing, malformed schemas and buffers, and the few operations
that a value does not support. Each cause carries what its message needs, and
one function holds the wording.
-/
namespace NamedArguments

/-- Which check a keyword argument failed. -/
inductive Reason where
  | missing
  | unknown
  /-- A reason that a caller gives itself, with its text. -/
  | stated (v : Value) (label : String)
deriving Repr

namespace Reason

/-- The text that messages start with. -/
def label : Reason → String
  | missing => "missing"
  | unknown => "unknown"
  | stated _ label => label

/-- A reason as a value. -/
def value : Reason → Value
  | stated v _ => v
  | reason => .text reason.label

/-- The reason that a value gives; `none` where it has no text. -/
def ofValue? (v : Value) : Option Reason :=
  v.written?.map (stated v)

end Reason

/-- Which rule a schema or buffer broke. -/
inductive SchemaReason where
  | duplicateKeyword
  | invalidKeyword
  | tableLength
  | bufferLength
  | missingBuffer
  /-- A rule that a caller gives itself. -/
  | stated (v : Value)
deriving Repr

/-- A broken rule as a value. -/
def SchemaReason.value : SchemaReason → Value
  | .duplicateKeyword => .text "duplicate_keyword"
  | .invalidKeyword => .text "invalid_keyword"
  | .tableLength => .text "table_length"
  | .bufferLength => .text "buffer_length"
  | .missingBuffer => .text "missing_buffer"
  | .stated v => v

/-- A malformed schema or buffer. -/
inductive SchemaFault where
  /-- A schema declares a keyword twice. -/
  | repeated (keyword : Keyword)
  /-- A builder is given a keyword it already has. -/
  | alreadyDeclared (keyword : Keyword)
  /-- A schema declares something of a kind that names nothing. -/
  | notKeyword (kind : String)
  /-- A keyword table is shorter than the counts declare. -/
  | tableLength (entries required optional : Value)
  /-- A buffer does not have one slot for each keyword. -/
  | bufferLength (slots : Nat) (declared : Extent)
  /-- Values are to be written and there is no buffer. -/
  | missingBuffer
  /-- A fault that a caller words itself. -/
  | stated (reason : SchemaReason) (message : String) (keyword : Value)
deriving Repr

namespace SchemaFault

def reason : SchemaFault → SchemaReason
  | .repeated _ | .alreadyDeclared _ => .duplicateKeyword
  | .notKeyword _ => .invalidKeyword
  | .tableLength .. => .tableLength
  | .bufferLength .. => .bufferLength
  | .missingBuffer => .missingBuffer
  | .stated reason _ _ => reason

/-- The keyword at fault; undefined where there is none. -/
def keyword : SchemaFault → Value
  | .repeated k | .alreadyDeclared k => k.value
  | .stated _ _ v => v
  | _ => .undefined

def message : SchemaFault → String
  | .repeated k => "Keyword '" ++ k.name ++ "' is declared more than once"
  | .alreadyDeclared k => "Keyword '" ++ k.name ++ "' is already declared"
  | .notKeyword kind => "Schema keywords must be strings or symbols, got " ++ kind
  | .tableLength entries required optional =>
    "Keyword table has " ++ entries.written?.getD "" ++ " entries but " ++
      required.written?.getD "" ++ " required and " ++ optional.written?.getD "" ++
      " optional were declared"
  | .bufferLength slots declared =>
    "Output buffer has " ++ toString slots ++ " slots but the schema declares " ++
      declared.text ++ " keywords"
  | .missingBuffer => "writeValues requires an output buffer"
  | .stated _ message _ => message

end SchemaFault

/-- What a rejected argument lists. -/
inductive Listing where
  | keywords (ks : List Keyword)
  /-- What a value that is no list made of itself when it was to be listed. -/
  | other (v : Value)
deriving Repr

/-- The names of the keywords listed. -/
def Listing.names : Listing → List String
  | .keywords ks => ks.map Keyword.name
  | .other _ => []

/-- Why an operation ends without a result. -/
inductive Fault where
  /-- A required keyword is absent. -/
  | missing (keyword : Keyword)
  /-- Keys outside the schema are left over. -/
  | unknown (listing : Listing)
  /-- A rejected argument of either sort. -/
  | argument (reason : Reason) (listing : Listing)
  /-- A key that has to be printed names nothing. -/
  | wrongType (value : Value) (typeName : String)
  | schema (fault : SchemaFault)
  /-- A value is used in a way that it does not support. -/
  | unsupported
  /-- A list is asked for that cannot have the length given. -/
  | invalidLength
  /-- A value is thrown by what the program relies on. -/
  | thrown (v : Value)
  /-- A wrapped implementation fails with a message of its own. -/
  | implementation (message : String)
deriving Repr

/-- The message for keywords that failed a check, by their names. -/
def Reason.message (reason : Reason) (names : List String) : String :=
  let head := reason.label ++ " keyword" ++ if 1 < names.length then "s" else ""
  if names = [] then head else head ++ ": " ++ String.intercalate ", " names

/-- A key that names nothing, or a failure to say what it is. -/
def Fault.ofNonKeyword (v : Value) : Fault :=
  match v.typeName? with
  | some typeName => .wrongType v typeName
  | none => .unsupported

/-- The printed name of a key. -/
def Value.printedName (key : Value) : Except Fault String :=
  match Keyword.ofValue? key with
  | some keyword => .ok keyword.name
  | none => .error (.ofNonKeyword key)

/-- The printed names of keys; the first key that names nothing is the fault. -/
def printedNames : List Value → Except Fault (List String)
  | [] => .ok []
  | key :: rest =>
    match key.printedName with
    | .error fault => .error fault
    | .ok name =>
      match printedNames rest with
      | .error fault => .error fault
      | .ok names => .ok (name :: names)

namespace Reason

/-- The message for keys that failed a check. -/
def describe (reason : Reason) (keys : List Value) : Except Fault String :=
  match printedNames keys with
  | .error fault => .error fault
  | .ok names => .ok (reason.message names)

/-- The message for keys given as one value. Whether there are several is asked
first, which not every length can be. Anything that claims to have no items has
no keys; other keys can be read off lists only. -/
def describeGiven (reason : Reason) (keys : Value) : Except Fault String :=
  match keys with
  | .list _ items => reason.describe items
  | other =>
    match other.length? with
    | none => .error .unsupported
    | some length =>
      match length.isAbove? (Extent.count 1).value with
      | none => .error .unsupported
      | some _ =>
        if (Extent.ofValue length).isCount 0 then reason.describe []
        else
          match other.callable "map", other.canMakeAnother, other.sequence? with
          | .language, true, some items => reason.describe items
          | _, _, _ => .error .unsupported

/-- As `describeGiven`, for a reason given as a value too. -/
def describeValues (reason keys : Value) : Except Fault String :=
  match ofValue? reason with
  | some reason => reason.describeGiven keys
  | none => .error .unsupported

end Reason

namespace Fault

/-- A rejected argument. The keys are printed first, and only those that can
name an argument are listed. -/
def rejected (reason : Reason) (state : Listing → Fault) (keys : List Value) :
    Except Fault Fault :=
  match reason.describe keys with
  | .error fault => .error fault
  | .ok _ => .ok (state (.keywords (keys.filterMap Keyword.ofValue?)))

/-- What a value that is no list, and has no keys, lists of itself. A list of
octets lists none of them, in a list of its own kind. -/
def sifted? (keys : Value) : Option Value :=
  match keys.callable "filter", keys.canMakeAnother with
  | .program, _ => some .undefined
  | .language, true => some (.object .merged (.ancestor .octets) [])
  | _, _ => none

/-- A rejected argument whose keys are given as one value. -/
def rejectedGiven (reason : Reason) (state : Listing → Fault) (keys : Value) :
    Except Fault Fault :=
  match keys with
  | .list _ items => rejected reason state items
  | other =>
    match reason.describeGiven other, sifted? other with
    | .error fault, _ => .error fault
    | .ok _, some listed => .ok (state (.other listed))
    | .ok _, none => .error .unsupported

/-- A rejected argument for a reason and keys that a caller gives. -/
def ofArgument (reason keys : Value) : Except Fault Fault :=
  match Reason.ofValue? reason with
  | some reason => rejectedGiven reason (.argument reason) keys
  | none => .error .unsupported

def ofUnknown (keys : List Value) : Except Fault Fault :=
  rejected .unknown .unknown keys

/-- As `ofUnknown`, for keys given as one value. -/
def ofUnknownGiven (keys : Value) : Except Fault Fault :=
  rejectedGiven .unknown .unknown keys

/-- A fault of a schema that a caller words; no message is an empty one. -/
def ofStatement (reason message keyword : Value) : Except Fault Fault :=
  match message with
  | .undefined => .ok (.schema (.stated (.stated reason) "" keyword))
  | given =>
    match given.written? with
    | some text => .ok (.schema (.stated (.stated reason) text keyword))
    | none => .error .unsupported

def ofMissing (key : Value) : Except Fault Fault :=
  match Keyword.ofValue? key with
  | some keyword => .ok (.missing keyword)
  | none => .error (.ofNonKeyword key)

def ofWrongType (v : Value) : Except Fault Fault :=
  match v.typeName? with
  | some typeName => .ok (.wrongType v typeName)
  | none => .error .unsupported

/-- The fault that arises from an attempt to state one. -/
def raised : Except Fault Fault → Fault
  | .ok fault => fault
  | .error instead => instead

/-- The wording of a fault that has one. -/
def message : Fault → Option String
  | .missing k => some (Reason.missing.message [k.name])
  | .unknown listing => some (Reason.unknown.message listing.names)
  | .argument reason listing => some (reason.message listing.names)
  | .wrongType _ typeName => some ("wrong argument type " ++ typeName ++ " (expected keyword)")
  | .schema fault => some fault.message
  | .implementation message => some message
  | .unsupported | .invalidLength | .thrown _ => none

end Fault
end NamedArguments
