import NamedArguments.ArgumentMap

/-!
Changes of arguments. Arguments come to be what they are by changes, one after
the other; those that are made from a list of entries come to be by setting
these in turn.
-/
namespace NamedArguments

/-- A change of arguments. -/
inductive Change where
  | set (key value : Value)
  | erase (key : Value)

namespace Change

/-- The key that a change is about. -/
def key : Change → Value
  | .set key _ => key
  | .erase key => key

/-- The value that a change gives its key; none where it removes the key. -/
def value? : Change → Option Value
  | .set _ value => some value
  | .erase _ => none

@[simp] theorem key_set (key value : Value) : (set key value).key = key := rfl

@[simp] theorem key_erase (key : Value) : (erase key).key = key := rfl

@[simp] theorem value?_set (key value : Value) : (set key value).value? = some value := rfl

@[simp] theorem value?_erase (key : Value) : (erase key).value? = none := rfl

end Change

namespace ArgumentMap

def change (args : ArgumentMap) : Change → ArgumentMap
  | .set key value => args.set key value
  | .erase key => (args.erase key).2

/-- Arguments after changes. -/
def after (args : ArgumentMap) (changes : List Change) : ArgumentMap := changes.foldl change args

@[simp] theorem after_nil (args : ArgumentMap) : args.after [] = args := rfl

theorem after_append (args : ArgumentMap) (changes more : List Change) :
    args.after (changes ++ more) = (args.after changes).after more := List.foldl_append

theorem after_concat (args : ArgumentMap) (changes : List Change) (change : Change) :
    args.after (changes ++ [change]) = (args.after changes).change change := by
  rw [after_append]
  rfl

/-- Arguments made from a list are empty ones in which its entries are set. -/
theorem ofList_eq_after (pairs : List (Value × Value)) :
    ofList pairs = empty.after (pairs.map fun pair => .set pair.1 pair.2) := by
  rw [after, List.foldl_map]
  rfl

end ArgumentMap
end NamedArguments
