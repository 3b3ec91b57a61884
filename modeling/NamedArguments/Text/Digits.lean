/-!
Decimal digits in text: reading a run of them, and the names that are
themselves canonical list positions.
-/
namespace NamedArguments.Text

def isDigit (c : Char) : Bool := '0' ≤ c && c ≤ '9'

/-- The number that digits continue, most significant first. -/
def readDigits (n : Nat) : List Char → Nat
  | [] => n
  | c :: rest => readDigits (n * 10 + (c.toNat - '0'.toNat)) rest

/-- The number written by a nonempty text of ASCII digits. -/
def decimal? (cs : List Char) : Option Nat :=
  if cs ≠ [] ∧ cs.all isDigit = true then some (readDigits 0 cs) else none

/-- List positions end one short of the greatest 32-bit word. -/
def positionLimit : Nat := Nat.pow 2 32 - 1

/-- The list position that a name spells, which has one spelling only. -/
def position? (name : String) : Option Nat :=
  match decimal? name.toList with
  | some n => if n < positionLimit ∧ Nat.toDigits 10 n = name.toList then some n else none
  | none => none

end NamedArguments.Text
