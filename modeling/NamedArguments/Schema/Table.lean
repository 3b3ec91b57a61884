import NamedArguments.Schema

/-!
Schemas from a keyword table and two counts. The first `required` entries are
required and the next ones optional. A negative optional count allows other
keys and declares one optional entry less than its magnitude, so that minus one
means "none, and others allowed". The counts are numbers as a rule and need not
be whole; other values count as what arithmetic takes them for.
-/
namespace NamedArguments.Schema

/-- Zero as a value. -/
def zero : Value := .number (.ofNat 0)

/-- Whether an optional count also says that other keys are allowed. -/
def countAllowsRest? (optional : Value) : Option Bool := optional.isBelow? zero

/-- How many optional keywords a count declares. -/
def optionalCount? (optional : Value) : Option Value :=
  match countAllowsRest? optional with
  | some true => optional.double?.map fun x => .number (.ofInt (-1) + -x)
  | some false => some optional
  | none => none

/-- Whether the counts ask for more than a table says it has. -/
def overruns? (table required optional : Value) : Option Bool :=
  match required.isBelow? zero with
  | some true => some true
  | some false =>
    match required.sum? optional, table.length? with
    | some needed, some entries => needed.isAbove? entries
    | _, _ => none
  | none => none

/-- The fault of a table that is too short. It takes the table's length and
both counts as text, which not every value has. -/
def lengthFault (table required optional : Value) : Fault :=
  match table.length? with
  | none => .unsupported
  | some entries =>
    if [entries, required, optional].all (·.written?.isSome) then
      .schema (.tableLength entries required optional)
    else .unsupported

/-- The items between two bounds, which are cut and counted as positions are. -/
def between (items : List Value) (start stop : Binary64) : List Value :=
  (items.take (stop.position items.length)).drop (start.position items.length)

/-- The bound up to which entries are taken; saying nothing means to the end. -/
def stopBound? (v : Value) : Option Binary64 :=
  match v with
  | .undefined => some (.infinite false)
  | v => v.double?

/-- The entries of a table between two bounds. A table may have a way of its own
to be cut, which answers nothing. -/
def entries? (table start stop : Value) : Option Value :=
  match table with
  | .list _ items => do return .list .merged (between items (← start.double?) (← stopBound? stop))
  | .text s => do
    let length := Text.unitCount s.toList
    let first := (← start.double?).position length
    let last := (← stopBound? stop).position length
    return .text (String.ofList (Text.cut s.toList first last))
  | other =>
    match other.callable "slice", other.canMakeAnother, other.sequence? with
    | .program, _, _ => some .undefined
    | .language, true, some items => do
      return .list .merged (between items (← start.double?) (← stopBound? stop))
    | _, _, _ => none

/-- Decodes a schema from a table and counts. -/
def ofTable (table required optional : Value) : Except Fault Schema :=
  match countAllowsRest? optional, optionalCount? optional with
  | some others, some count =>
    match overruns? table required count with
    | some true => .error (lengthFault table required count)
    | some false =>
      match entries? table zero required, (required.sum? count).bind (entries? table required) with
      | some requiredKeys, some optionalKeys => define requiredKeys optionalKeys (.bool others)
      | _, _ => .error .unsupported
    | none => .error .unsupported
  | _, _ => .error .unsupported

end NamedArguments.Schema
