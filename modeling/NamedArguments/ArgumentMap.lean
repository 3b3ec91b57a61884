import NamedArguments.Value.Key
import NamedArguments.Fault

/-!
Arguments by key, in insertion order. Every entry carries the stamp of the
moment its key became live, so entries stand in ascending order of stamps, and
a key that is removed and set again is a new entry at the end.
-/
namespace NamedArguments

/-- A live key with its value and the stamp of its coming alive. -/
structure MapEntry where
  stamp : Nat
  key : Value
  value : Value

/-- The entry with a new value if it is the key's. -/
def MapEntry.overwrite (key value : Value) (entry : MapEntry) : MapEntry :=
  if key.sameKey entry.key then { entry with value } else entry

/-- Entries in insertion order: no key twice, stamps ascending and used up. -/
structure ArgumentMap where
  entries : List MapEntry
  next : Nat
  distinct : (entries.map (·.key.key)).Nodup
  ascending : (entries.map (·.stamp)).Pairwise (· < ·)
  used : ∀ entry ∈ entries, entry.stamp < next

namespace ArgumentMap

def empty : ArgumentMap :=
  { entries := [], next := 0, distinct := by simp, ascending := by simp, used := by simp }

instance : Inhabited ArgumentMap := ⟨empty⟩

/-- The entry of a key. -/
def entry? (args : ArgumentMap) (key : Value) : Option MapEntry :=
  args.entries.find? fun entry => key.sameKey entry.key

def has (args : ArgumentMap) (key : Value) : Bool := (args.entry? key).isSome

def size (args : ArgumentMap) : Nat := args.entries.length

/-- The stored value, or the marker where the key is not live. -/
def lookup (args : ArgumentMap) (key : Value) : Value :=
  match args.entry? key with
  | some entry => entry.value
  | none => .absent

/-- Live keys, in insertion order. -/
def keys (args : ArgumentMap) : List Value := args.entries.map (·.key)

/-- Keys with their values, in insertion order. -/
def toList (args : ArgumentMap) : List (Value × Value) :=
  args.entries.map fun entry => (entry.key, entry.value)

private theorem not_held {args : ArgumentMap} {key : Value} (absent : ¬ args.has key = true) :
    key.key ∉ args.entries.map (·.key.key) := by
  intro member
  obtain ⟨entry, held, same⟩ := List.mem_map.mp member
  exact absent (List.find?_isSome.mpr ⟨entry, held, Value.sameKey_iff.mpr same.symm⟩)

private theorem overwrite_key (key value : Value) :
    ((fun entry : MapEntry => entry.key.key) ∘ MapEntry.overwrite key value) =
      fun entry => entry.key.key := by
  funext entry
  simp only [Function.comp, MapEntry.overwrite]
  split <;> rfl

private theorem overwrite_stamp (key value : Value) (entry : MapEntry) :
    (MapEntry.overwrite key value entry).stamp = entry.stamp := by
  simp only [MapEntry.overwrite]
  split <;> rfl

/-- Sets a key: a live one keeps its place and takes the value, any other comes
alive at the end. -/
def set (args : ArgumentMap) (key value : Value) : ArgumentMap :=
  if held : args.has key = true then
    { entries := args.entries.map (MapEntry.overwrite key value)
      next := args.next
      distinct := by rw [List.map_map, overwrite_key]; exact args.distinct
      ascending := by
        have same : ((fun entry : MapEntry => entry.stamp) ∘ MapEntry.overwrite key value) =
            fun entry => entry.stamp := funext (overwrite_stamp key value)
        rw [List.map_map, same]
        exact args.ascending
      used := by
        intro entry member
        obtain ⟨before, was, rfl⟩ := List.mem_map.mp member
        rw [overwrite_stamp]
        exact args.used before was }
  else
    { entries := args.entries ++ [⟨args.next, key.asStored, value⟩]
      next := args.next + 1
      distinct := by
        have fresh := not_held held
        simp only [List.map_append, List.map_cons, List.map_nil, Value.key_asStored]
        refine List.nodup_append.mpr ⟨args.distinct, by simp, ?_⟩
        intro a was b new
        simp only [List.mem_singleton] at new
        subst new
        exact fun same => fresh (same ▸ was)
      ascending := by
        simp only [List.map_append, List.map_cons, List.map_nil]
        refine List.pairwise_append.mpr ⟨args.ascending, by simp, ?_⟩
        intro stamp was other new
        simp only [List.mem_singleton] at new
        obtain ⟨entry, member, rfl⟩ := List.mem_map.mp was
        exact new ▸ args.used entry member
      used := by
        intro entry member
        rcases List.mem_append.mp member with was | new
        · exact Nat.lt_succ_of_lt (args.used entry was)
        · simp only [List.mem_singleton] at new
          subst new
          exact Nat.lt_succ_self _ }

/-- Removes a key; the answer says whether it was live. -/
def erase (args : ArgumentMap) (key : Value) : Bool × ArgumentMap :=
  (args.has key,
    { entries := args.entries.filter fun entry => !key.sameKey entry.key
      next := args.next
      distinct := args.distinct.sublist (List.filter_sublist.map _)
      ascending := args.ascending.sublist (List.filter_sublist.map _)
      used := fun entry member => args.used entry (List.mem_filter.mp member).1 })

/-- Keys and values set in order. -/
def ofList (pairs : List (Value × Value)) : ArgumentMap :=
  pairs.foldl (fun args pair => args.set pair.1 pair.2) empty

/-- The key and the value that an entry in a list stands for: its first two
items, undefined where there are fewer. -/
def pairOf? (entry : Value) : Option (Value × Value) :=
  entry.sequence?.map fun items => (items.head?.getD .undefined, (items.drop 1).head?.getD .undefined)

/-- Arguments from a list of entries; none are meant where nothing is said. -/
def ofEntries (entries : Value) : Except Fault ArgumentMap :=
  match entries with
  | .undefined => .ok empty
  | v =>
    match v.sequence?.bind (·.mapM pairOf?) with
    | some pairs => .ok (ofList pairs)
    | none => .error .unsupported

end ArgumentMap
end NamedArguments
