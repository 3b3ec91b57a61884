/-!
Exact arithmetic on IEEE double-precision numbers. Every finite double is a
whole multiple of `2 ^ -1074`, so a finite number is held as that multiple
with its sign; addition is integer addition followed by one rounding, and
comparison is integer comparison. No machine arithmetic is involved.
-/
namespace NamedArguments

/-- A double: `units` counts multiples of `2 ^ -1074`. The sign of zero is
kept, and there is one not-a-number. -/
inductive Binary64 where
  | nan
  | infinite (negative : Bool)
  | finite (negative : Bool) (units : Nat)
deriving DecidableEq, Repr, Inhabited

namespace Binary64

/-- How many units make one. -/
def one : Nat := Nat.pow 2 1074

/-- Magnitudes from here on round to infinity. -/
def overflow : Nat := Nat.pow 2 2098

/-- The distance between neighbouring doubles around a count of units. -/
def spacing (units : Nat) : Nat :=
  if units < Nat.pow 2 53 then 1 else Nat.pow 2 (units.log2 - 52)

/-- The count of units nearest to a ratio among those with at most 53
significant bits; a tie goes to the even neighbour. -/
def roundRatio (numerator denominator : Nat) : Nat :=
  let step := spacing (numerator / denominator)
  let below := numerator / (denominator * step)
  let rest := numerator % (denominator * step)
  if 2 * rest < denominator * step ∨ (2 * rest = denominator * step ∧ below % 2 = 0) then
    below * step
  else (below + 1) * step

/-- A sign with a count of units; too great a count is infinite. -/
def bounded (negative : Bool) (units : Nat) : Binary64 :=
  if units < overflow then .finite negative units else .infinite negative

/-- The double nearest to a ratio of counts of units. -/
def ofRatio (negative : Bool) (numerator denominator : Nat) : Binary64 :=
  bounded negative (roundRatio numerator denominator)

/-- The double nearest to a count of units. -/
def ofUnits (negative : Bool) (n : Nat) : Binary64 := ofRatio negative n 1

/-- The double nearest to a natural number. -/
def ofNat (n : Nat) : Binary64 := ofUnits false (n * one)

/-- The double nearest to an integer; zero is positive. -/
def ofInt (n : Int) : Binary64 := ofUnits (decide (n < 0)) (n.natAbs * one)

/-- A finite number as a signed count of units. -/
def signed (negative : Bool) (units : Nat) : Int :=
  if negative then -(units : Int) else units

def neg : Binary64 → Binary64
  | nan => nan
  | infinite negative => infinite (!negative)
  | finite negative units => finite (!negative) units

/-- The sum, rounded once. Exact cancellation gives positive zero unless both
operands are negative zeros. -/
def add : Binary64 → Binary64 → Binary64
  | nan, _ => nan
  | _, nan => nan
  | infinite a, infinite b => if a = b then infinite a else nan
  | infinite a, finite _ _ => infinite a
  | finite _ _, infinite b => infinite b
  | finite a m, finite b n =>
    let sum := signed a m + signed b n
    if sum = 0 then finite (a && b) 0 else ofUnits (decide (sum < 0)) sum.natAbs

instance : Neg Binary64 := ⟨neg⟩
instance : Add Binary64 := ⟨add⟩

/-- Strictly above a natural number, compared exactly. -/
def exceeds (x : Binary64) (n : Nat) : Bool :=
  match x with
  | nan => false
  | infinite negative => !negative
  | finite negative units => !negative && decide (n * one < units)

/-- A place on the line of numbers that reaches to both infinities. -/
inductive Place where
  | bottom
  | units (n : Int)
  | top
deriving DecidableEq, Repr

/-- Strictly below. -/
def Place.isBelow : Place → Place → Bool
  | .units m, .units n => decide (m < n)
  | .bottom, .bottom | .top, _ | _, .bottom => false
  | .bottom, _ | _, .top => true

/-- Where a number lies; not-a-number lies nowhere. -/
def place? : Binary64 → Option Place
  | nan => none
  | infinite negative => some (if negative then .bottom else .top)
  | finite negative units => some (.units (signed negative units))

/-- The least natural number that is not below a finite number. -/
def ceiling : Binary64 → Nat
  | finite false units => (units + (one - 1)) / one
  | _ => 0

/-- Not-a-number and the two zeros count as false. -/
def isTruthy : Binary64 → Bool
  | nan => false
  | infinite _ => true
  | finite _ units => units != 0

/-- The position that a bound names in a sequence: the bound is cut toward
zero, not-a-number counts as zero, a negative bound counts from the end, and
the result is clipped to the sequence. -/
def position (x : Binary64) (length : Nat) : Nat :=
  match x with
  | nan => 0
  | infinite negative => if negative then 0 else length
  | finite negative units =>
    let whole := units / one
    if negative then (if whole = 0 then 0 else length - whole) else min whole length

/-- The integer below `2 ^ 53` that the number is, if it is one. Negative zero
is not. -/
def toInt? : Binary64 → Option Int
  | finite negative units =>
    if units % one = 0 ∧ units / one < Nat.pow 2 53 ∧ ¬ (negative = true ∧ units = 0) then
      some (signed negative (units / one))
    else none
  | _ => none

/-- The number that a 64-bit word encodes. -/
def ofBits (word : Nat) : Binary64 :=
  let negative := decide (word / Nat.pow 2 63 % 2 = 1)
  let exponent := word / Nat.pow 2 52 % 2048
  let fraction := word % Nat.pow 2 52
  if exponent = 2047 then (if fraction = 0 then infinite negative else nan)
  else if exponent = 0 then finite negative fraction
  else finite negative ((Nat.pow 2 52 + fraction) * Nat.pow 2 (exponent - 1))

/-- The 64-bit word of a number; not-a-number has the quiet word without
payload. -/
def toBits : Binary64 → Nat
  | nan => 0x7ff8000000000000
  | infinite negative => (if negative then Nat.pow 2 63 else 0) + 0x7ff0000000000000
  | finite negative units =>
    (if negative then Nat.pow 2 63 else 0) +
      if units < Nat.pow 2 52 then units
      else
        let shift := units.log2 - 52
        (shift + 1) * Nat.pow 2 52 + (units / Nat.pow 2 shift - Nat.pow 2 52)

end Binary64
end NamedArguments
