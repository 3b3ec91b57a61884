import NamedArguments.Value.Written
import NamedArguments.Text.Numeral

/-!
Sums and comparisons of arbitrary values. An object takes part as the plain
value it stands for, in sums of dates as a text and elsewhere as a number if it
can. In a sum, a text makes the other side text too; otherwise
both sides are numbers, either doubles or whole numbers of any size, which do
not add to one another but compare exactly. Behind a whole number, an object is
compared as the double that it writes. What cannot take part makes the operation
impossible.
-/
namespace NamedArguments

/-- A number of either sort. -/
inductive Quantity where
  | double (x : Binary64)
  | whole (n : Int)

/-- Where a number lies; not-a-number lies nowhere. -/
def Quantity.place? : Quantity → Option Binary64.Place
  | .double x => x.place?
  | .whole n => some (.units (n * Binary64.one))

namespace Value

/-- The aspect in which a value takes part in a sum: dates do as texts. -/
def sumAspect : Value → Aspect
  | .object _ (.ancestor .date) _ => .text
  | _ => .number

/-- The number that a plain value counts as; symbols count as none. -/
def quantity? : Value → Option Quantity
  | .undefined => some (.double .nan)
  | .null => some (.double (.ofNat 0))
  | .bool b => some (.double (.ofNat (if b then 1 else 0)))
  | .number x => some (.double x)
  | .bigint n => some (.whole n)
  | .text s => some (.double (Text.number s.toList))
  | _ => none

/-- The double that a value counts as; whole numbers of any size do not. -/
def double? (v : Value) : Option Binary64 :=
  match (v.plainValue? .number).bind quantity? with
  | some (.double x) => some x
  | _ => none

/-- The sum of two plain values. -/
def plainSum? (a b : Value) : Option Value :=
  match a, b with
  | .text s, b => b.written?.map fun t => .text (s ++ t)
  | a, .text t => a.written?.map fun s => .text (s ++ t)
  | a, b =>
    match a.quantity?, b.quantity? with
    | some (.double x), some (.double y) => some (.number (x + y))
    | some (.whole m), some (.whole n) => some (.bigint (m + n))
    | _, _ => none

/-- The sum of two values. -/
def sum? (a b : Value) : Option Value :=
  match a.plainValue? a.sumAspect, b.plainValue? b.sumAspect with
  | some a, some b => plainSum? a b
  | _, _ => none

/-- Where a plain value lies beside another one; a text that stands against a
whole number is itself read as one. Nothing lies nowhere. -/
def placeBeside? (a b : Value) : Option (Option Binary64.Place) :=
  match a, b with
  | .text s, .bigint _ => some ((Text.integer? s.toList).bind fun n => Quantity.place? (.whole n))
  | a, _ => a.quantity?.map Quantity.place?

/-- Whether a plain value lies strictly below another. Texts compare in the
order of their units. -/
def plainBelow? (a b : Value) : Option Bool :=
  match a, b with
  | .text s, .text t => some (Text.precedes s.toList t.toList)
  | a, b =>
    match placeBeside? a b, placeBeside? b a with
    | some (some p), some (some q) => some (p.isBelow q)
    | some _, some _ => some false
    | _, _ => none

/-- Whether a value lies strictly below another. -/
def isBelow? (a b : Value) : Option Bool :=
  match a.plainValue? .number, b.plainValue? .number with
  | some a, some b => plainBelow? a b
  | _, _ => none

/-- The plain value that a value is behind a whole number: an object is the
number that it writes. -/
def behindWhole? : Value → Option Value
  | .bigint n => some (.bigint n)
  | .text s => some (.text s)
  | v => v.double?.map .number

/-- Whether a value lies strictly above another. What an object writes counts
as a double if the first value is a whole number, so that a fraction lies
somewhere too. -/
def isAbove? (a b : Value) : Option Bool :=
  match a with
  | .bigint n => b.behindWhole?.bind fun other => plainBelow? other (.bigint n)
  | a => b.isBelow? a

end Value
end NamedArguments
