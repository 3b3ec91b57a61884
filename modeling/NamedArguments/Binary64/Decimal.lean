import NamedArguments.Binary64.Shortest

/-!
The double nearest to a decimal, computed exactly: the decimal is a ratio of
natural numbers, which is rounded once.
-/
namespace NamedArguments.Binary64

/-- Decimals whose first digit stands this far before the point are infinite. -/
def decimalCeiling : Int := 310

/-- Decimals whose first digit stands this far after the point are zero. -/
def decimalFloor : Int := -330

/-- The double nearest to digits, read as a whole number, times a power of ten. -/
def ofDecimal (negative : Bool) (digits : Nat) (exponent : Int) : Binary64 :=
  let magnitude := exponent + digitCount digits
  if digits = 0 ∨ magnitude < decimalFloor then finite negative 0
  else if decimalCeiling < magnitude then infinite negative
  else if 0 ≤ exponent then ofUnits negative (digits * Nat.pow 10 exponent.toNat * one)
  else ofRatio negative (digits * one) (Nat.pow 10 (-exponent).toNat)

end NamedArguments.Binary64
