import NamedArguments.Binary64.Decimal
import NamedArguments.Text.Digits

/-!
Numbers written as text. Blanks around a numeral do not count, and nothing at
all is zero. A numeral is a decimal with an optional sign, fraction and
exponent, the word for infinity, or a whole number in base two, eight or
sixteen behind a mark. Any other text is no number.
-/
namespace NamedArguments.Text

/-- The characters that count as blank, in ranges of code points. -/
def blankRanges : List (Nat × Nat) :=
  [(0x9, 0xD), (0x20, 0x20), (0xA0, 0xA0), (0x1680, 0x1680), (0x2000, 0x200A),
    (0x2028, 0x2029), (0x202F, 0x202F), (0x205F, 0x205F), (0x3000, 0x3000), (0xFEFF, 0xFEFF)]

def isBlank (c : Char) : Bool :=
  blankRanges.any fun range => range.1 ≤ c.toNat && c.toNat ≤ range.2

/-- A text without the blanks around it. -/
def trim (cs : List Char) : List Char :=
  ((cs.dropWhile isBlank).reverse.dropWhile isBlank).reverse

/-- The value of a digit in bases up to sixteen. -/
def digitValue? (c : Char) : Option Nat :=
  if isDigit c then some (c.toNat - '0'.toNat)
  else if 'a' ≤ c ∧ c ≤ 'f' then some (c.toNat - 'a'.toNat + 10)
  else if 'A' ≤ c ∧ c ≤ 'F' then some (c.toNat - 'A'.toNat + 10)
  else none

/-- The number that digits of a base continue. -/
def readBase? (base : Nat) (n : Nat) : List Char → Option Nat
  | [] => some n
  | c :: rest =>
    match digitValue? c with
    | some d => if d < base then readBase? base (n * base + d) rest else none
    | none => none

/-- The base that a letter behind a zero announces. -/
def announcedBase? (c : Char) : Option Nat :=
  if c = 'x' ∨ c = 'X' then some 16
  else if c = 'o' ∨ c = 'O' then some 8
  else if c = 'b' ∨ c = 'B' then some 2
  else none

/-- A whole number behind the mark of its base, if a text starts with one; what
follows the mark may still be no numeral. -/
def marked? : List Char → Option (Option Nat)
  | '0' :: letter :: digits =>
    (announcedBase? letter).map fun base =>
      if digits = [] then none else readBase? base 0 digits
  | _ => none

/-- A sign, if there is one, and the rest. -/
def splitSign : List Char → Bool × List Char
  | '+' :: rest => (false, rest)
  | '-' :: rest => (true, rest)
  | cs => (false, cs)

/-- The exponent at the end of a decimal; none counts as zero. -/
def exponent? : List Char → Option Int
  | [] => some 0
  | mark :: rest =>
    if mark = 'e' ∨ mark = 'E' then
      let (negative, digits) := splitSign rest
      (decimal? digits).map fun n => if negative then -(n : Int) else n
    else none

/-- The digits after a point, if one comes next, and the rest. -/
def splitFraction : List Char → List Char × List Char
  | '.' :: rest => (rest.takeWhile isDigit, rest.dropWhile isDigit)
  | cs => ([], cs)

/-- The number that an unsigned decimal writes. -/
def unsignedDecimal? (negative : Bool) (cs : List Char) : Option Binary64 :=
  let whole := cs.takeWhile isDigit
  let (fraction, rest) := splitFraction (cs.dropWhile isDigit)
  if whole ++ fraction = [] then none
  else
    (exponent? rest).map fun exponent =>
      .ofDecimal negative (readDigits 0 (whole ++ fraction)) (exponent - fraction.length)

/-- The word for infinity. -/
def infinityWord : List Char := "Infinity".toList

/-- The number that a text writes. -/
def number (text : List Char) : Binary64 :=
  let cs := trim text
  if cs = [] then .finite false 0
  else
    match marked? cs with
    | some n => (n.map Binary64.ofNat).getD .nan
    | none =>
      let (negative, rest) := splitSign cs
      if rest = infinityWord then .infinite negative
      else (unsignedDecimal? negative rest).getD .nan

/-- The integer that a text writes, if it writes one. -/
def integer? (text : List Char) : Option Int :=
  let cs := trim text
  if cs = [] then some 0
  else
    match marked? cs with
    | some n => n.map Int.ofNat
    | none =>
      let (negative, rest) := splitSign cs
      (decimal? rest).map fun n => if negative then -(n : Int) else n

end NamedArguments.Text
