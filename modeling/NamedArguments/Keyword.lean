import NamedArguments.Value

/-!
Keywords: the values that can name an argument. A text names itself and a
symbol goes by its description.
-/
namespace NamedArguments

/-- A value that can name an argument. -/
inductive Keyword where
  | text (s : String)
  | symbol (id : String) (description : Option String)
  | absent
deriving DecidableEq, Repr

namespace Keyword

def ofValue? : Value → Option Keyword
  | .text s => some (.text s)
  | .symbol id description => some (.symbol id description)
  | .absent => some .absent
  | _ => none

def value : Keyword → Value
  | .text s => .text s
  | .symbol id description => .symbol id description
  | .absent => .absent

/-- The description of the marker for "no argument supplied". -/
def absentName : String := "kwargs.unspecified"

/-- The printed name. A symbol without description has an empty one. -/
def name : Keyword → String
  | .text s => s
  | .symbol _ description => description.getD ""
  | .absent => absentName

@[simp] theorem ofValue?_value (k : Keyword) : ofValue? k.value = some k := by
  cases k <;> rfl

theorem value_of_ofValue? {v : Value} {k : Keyword} (named : ofValue? v = some k) :
    k.value = v := by
  cases v <;> simp_all [ofValue?] <;> subst named <;> rfl

end Keyword

/-- Whether a value can name an argument. -/
def Value.namesArgument (v : Value) : Bool := (Keyword.ofValue? v).isSome

end NamedArguments
