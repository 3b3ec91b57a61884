/-!
Text measured in 16-bit code units. A character beyond the basic plane counts
as two halves, and a cut between the halves leaves a replacement character.
-/
namespace NamedArguments.Text

/-- One 16-bit unit of a text. -/
inductive CodeUnit where
  | whole (c : Char)
  | high (c : Char)
  | low (c : Char)

def replacement : Char := Char.ofNat 0xFFFD

/-- The units of a text, in order. -/
def toUnits : List Char → List CodeUnit
  | [] => []
  | c :: rest =>
    if c.toNat < 0x10000 then .whole c :: toUnits rest else .high c :: .low c :: toUnits rest

/-- The text that units make up. -/
def ofUnits : List CodeUnit → List Char
  | [] => []
  | .whole c :: rest => c :: ofUnits rest
  | .high c :: .low _ :: rest => c :: ofUnits rest
  | .high _ :: rest => replacement :: ofUnits rest
  | .low _ :: rest => replacement :: ofUnits rest

/-- The length of a text in units. -/
def unitCount (cs : List Char) : Nat := (toUnits cs).length

/-- The units from one position up to another. -/
def cut (cs : List Char) (start stop : Nat) : List Char :=
  ofUnits (((toUnits cs).take stop).drop start)

/-- The number that a unit is. -/
def CodeUnit.code : CodeUnit → Nat
  | .whole c => c.toNat
  | .high c => 0xD800 + (c.toNat - 0x10000) / 0x400
  | .low c => 0xDC00 + (c.toNat - 0x10000) % 0x400

/-- Whether a text comes before another in the order of units. -/
def precedes (a b : List Char) : Bool :=
  decide ((toUnits a).map CodeUnit.code < (toUnits b).map CodeUnit.code)

theorem ofUnits_toUnits (cs : List Char) : ofUnits (toUnits cs) = cs := by
  induction cs with
  | nil => rfl
  | cons c rest ih =>
    by_cases h : c.toNat < 0x10000 <;> simp [toUnits, ofUnits, h, ih]

end NamedArguments.Text
