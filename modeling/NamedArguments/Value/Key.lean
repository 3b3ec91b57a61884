import NamedArguments.Value

/-!
When two values are the same key. Numbers are compared as numbers except that
not-a-number equals itself and the two zeros are one key; text is compared
character by character; lists, objects, functions and symbols only by identity.
Sameness is equality of an identifying part, so it is an equivalence.
-/
namespace NamedArguments

/-- What identifies a value as a key. -/
inductive Key where
  | undefined
  | null
  | bool (b : Bool)
  | number (x : Binary64)
  | bigint (n : Int)
  | text (s : String)
  | symbol (id : String)
  | absent
  | function (id : String)
  | builtin (name : String)
  | reference (identity : Identity)
  | ancestor (family : Family)
deriving DecidableEq, Repr

/-- A number with negative zero replaced by zero. -/
def Binary64.unsignedZero : Binary64 → Binary64
  | .finite negative units => .finite (negative && units != 0) units
  | x => x

namespace Value

def key : Value → Key
  | .undefined => .undefined
  | .null => .null
  | .bool b => .bool b
  | .number x => .number x.unsignedZero
  | .bigint n => .bigint n
  | .text s => .text s
  | .symbol id _ => .symbol id
  | .absent => .absent
  | .function id => .function id
  | .builtin name => .builtin name
  | .list identity _ => .reference identity
  | .object identity _ _ => .reference identity
  | .ancestor family => .ancestor family

/-- Whether two values are the same key. -/
def sameKey (a b : Value) : Bool := decide (a.key = b.key)

/-- Whether a number is not-a-number, the one value unlike itself. -/
def isNotANumber : Value → Bool
  | .number .nan => true
  | _ => false

/-- Whether two values are one and the same; not-a-number is not. -/
def isIdentical (a b : Value) : Bool := a.sameKey b && !a.isNotANumber

/-- The form in which a mapping keeps a key: negative zero is kept as zero. -/
def asStored : Value → Value
  | .number x => .number x.unsignedZero
  | v => v

/-- Whether a list of values holds a key. -/
def inKeys (v : Value) (keys : List Value) : Bool := keys.any v.sameKey

@[simp] theorem sameKey_iff {a b : Value} : a.sameKey b = true ↔ a.key = b.key := by
  simp [sameKey]

@[simp] theorem inKeys_iff {v : Value} {keys : List Value} :
    v.inKeys keys = true ↔ v.key ∈ keys.map key := by
  simp only [inKeys, List.any_eq_true, sameKey_iff, List.mem_map]
  exact ⟨fun ⟨k, held, same⟩ => ⟨k, held, same.symm⟩, fun ⟨k, held, same⟩ => ⟨k, held, same.symm⟩⟩

@[simp] theorem key_asStored (v : Value) : v.asStored.key = v.key := by
  cases v with
  | number x => cases x <;> simp [asStored, key, Binary64.unsignedZero]
  | _ => rfl

end Value
end NamedArguments
