import NamedArguments.Value.Arithmetic

/-!
Numbers of keywords. Lists have a natural number of items, and so do two lists
together. What is no list claims a length of any kind, and two such lengths add
up like any two values, possibly to something that is no count at all.
-/
namespace NamedArguments

/-- A number of keywords or slots, or another value that stands in its place. -/
inductive Extent where
  | count (n : Nat)
  | other (v : Value)
deriving Repr

namespace Extent

/-- An extent as a value. -/
def value : Extent → Value
  | count n => .number (.ofNat n)
  | other v => v

/-- The extent that a value is: natural numbers are counts. -/
def ofValue (v : Value) : Extent :=
  match v with
  | .number (.finite _ 0) => count 0
  | .number x =>
    match x.toInt? with
    | some (.ofNat n) => count n
    | _ => other v
  | v => other v

/-- The extent of two halves together; `none` where their lengths do not add
up. -/
def add? : Extent → Extent → Option Extent
  | count m, count n => some (count (m + n))
  | a, b => (a.value.sum? b.value).map ofValue

/-- Whether an extent is a number of slots. -/
def isCount (extent : Extent) (n : Nat) : Bool :=
  match extent with
  | count m => m == n
  | other _ => false

def text : Extent → String
  | count n => toString n
  | other v => v.written?.getD ""

/-- How many indices from a given one on lie below an extent. None do below
what is no number. -/
def beyond (extent : Extent) (start : Nat) : Nat :=
  match extent with
  | count n => n - start
  | other v =>
    match v.quantity? with
    | some (.double x) => x.ceiling - start
    | some (.whole n) => n.toNat - start
    | none => 0

/-- A slot that a value names, if it names one. -/
def slotOf? : Value → Option Nat
  | .text s => Text.position? s
  | v =>
    match ofValue v with
    | count n => if n < Text.positionLimit then some n else none
    | other _ => none

/-- The slot a number of places behind an extent, if there is such a slot;
`none` where the number cannot be added. -/
def slot? (extent : Extent) (index : Nat) : Option (Option Nat) :=
  match extent with
  | count n => some (some (n + index))
  | other v => (v.sum? (.number (.ofNat index))).map slotOf?

end Extent
end NamedArguments
