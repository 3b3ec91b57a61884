import NamedArguments.Binary64

/-!
The shortest decimal that reads back as a given double. The reals that round
to a double form an interval; for one digit, two digits and so on the two
neighbours of the value on that decimal grid are tested against it in exact
integer arithmetic. The first grid with a hit wins, and of two hits the nearer
one.
-/
namespace NamedArguments.Binary64

/-- How many decimal digits a natural number has. -/
def digitCount (n : Nat) : Nat := (Nat.toDigits 10 n).length

/-- The least `j` below the fuel for which `units * 10 ^ (j + 1)` reaches one. -/
def leadingZeros (units : Nat) : Nat → Nat → Nat
  | 0, j => j
  | fuel + 1, j => if one ≤ units * Nat.pow 10 (j + 1) then j else leadingZeros units fuel (j + 1)

/-- The power of ten just above the value: `10 ^ (p - 1) ≤ value < 10 ^ p`. -/
def decimalPoint (units : Nat) : Int :=
  if one ≤ units then digitCount (units / one) else -(leadingZeros units 330 0 : Int)

/-- The interval of reals that round to the value, in quarter units. Below a
power of two the neighbouring double is half as far away. -/
structure Interval where
  low : Nat
  high : Nat
  /-- Whether the two ends themselves round to the value. -/
  closed : Bool

def interval (units : Nat) : Interval :=
  let step := if units < Nat.pow 2 53 then 1 else Nat.pow 2 (units.log2 - 52)
  let narrow := decide (Nat.pow 2 53 ≤ units ∧ units = Nat.pow 2 units.log2)
  { low := 4 * units - (if narrow then step else 2 * step)
    high := 4 * units + 2 * step
    closed := decide (units / step % 2 = 0) }

/-- A quantity of quarter units and a digit string, brought to one scale: the
pair `(c * 10 ^ g, quarters / (4 * 2 ^ 1074))` times a common factor. -/
def gridPoint (c : Nat) (g : Int) : Nat :=
  if 0 ≤ g then c * Nat.pow 10 g.toNat * (4 * one) else c * (4 * one)

def gridScale (quarters : Nat) (g : Int) : Nat :=
  if 0 ≤ g then quarters else quarters * Nat.pow 10 (-g).toNat

/-- Whether the grid point rounds to the value. -/
def Interval.contains (i : Interval) (c : Nat) (g : Int) : Bool :=
  let point := gridPoint c g
  let low := gridScale i.low g
  let high := gridScale i.high g
  if i.closed then decide (low ≤ point ∧ point ≤ high) else decide (low < point ∧ point < high)

/-- The grid point with `count` digits that reads back, the nearer of two, the
even one of two equally near. -/
def onGrid (units : Nat) (count : Nat) : Option (Nat × Int) :=
  let g := decimalPoint units - count
  let value := gridScale (4 * units) g
  let below := value / gridPoint 1 g
  let i := interval units
  let lower := i.contains below g
  let upper := i.contains (below + 1) g
  let belowGap := value - gridPoint below g
  let aboveGap := gridPoint (below + 1) g - value
  if lower && upper then
    if belowGap < aboveGap ∨ (belowGap = aboveGap ∧ below % 2 = 0) then some (below, g)
    else some (below + 1, g)
  else if lower then some (below, g)
  else if upper then some (below + 1, g)
  else none

/-- The digits, as a whole number, and the power of ten they stand for. -/
def shortest (units : Nat) : Nat × Int :=
  ((List.range 17).findSome? fun k => onGrid units (k + 1)).getD (0, 0)

end NamedArguments.Binary64
