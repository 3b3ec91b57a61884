import NamedArguments.Binary64.Shortest

/-!
The text of a number in messages: the shortest digits that read back, written
positionally when the decimal point falls near them and with an exponent
otherwise.
-/
namespace NamedArguments

/-- Where the decimal point may fall, counted from the first digit, for a
number still to be written positionally. -/
structure NumberNotation where
  least : Int
  greatest : Int
  notANumber : String
  infinity : String

/-- Numbers in messages are positional from `1e-6` up to below `1e21`. -/
def messageNumbers : NumberNotation :=
  { least := -5, greatest := 21, notANumber := "NaN", infinity := "Infinity" }

namespace NumberNotation

/-- A digit string without its trailing zeros. -/
def trimZeros (digits : List Char) : List Char :=
  (digits.reverse.dropWhile (· = '0')).reverse

/-- Digits `d` with the point `n` places after the start of the string. -/
def place (style : NumberNotation) (digits : List Char) (n : Int) : List Char :=
  let count : Int := digits.length
  if style.least ≤ n ∧ n ≤ style.greatest then
    if count ≤ n then digits ++ List.replicate (n - count).toNat '0'
    else if 0 < n then digits.take n.toNat ++ '.' :: digits.drop n.toNat
    else '0' :: '.' :: (List.replicate (-n).toNat '0' ++ digits)
  else
    let exponent := n - 1
    let mark := 'e' :: (if exponent < 0 then '-' else '+') :: Nat.toDigits 10 exponent.natAbs
    match digits with
    | [d] => d :: mark
    | d :: more => d :: '.' :: (more ++ mark)
    | [] => mark

/-- The sign of zero is not written. -/
def write (style : NumberNotation) : Binary64 → String
  | .nan => style.notANumber
  | .infinite negative => (if negative then "-" else "") ++ style.infinity
  | .finite negative units =>
    if units = 0 then "0"
    else
      let (digits, exponent) := Binary64.shortest units
      let written := Nat.toDigits 10 digits
      let point := exponent + written.length
      (if negative then "-" else "") ++ String.ofList (style.place (trimZeros written) point)

end NumberNotation

/-- A number as messages print it. -/
def Binary64.text (x : Binary64) : String := messageNumbers.write x

end NamedArguments
