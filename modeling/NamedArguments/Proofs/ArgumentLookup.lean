import Mathlib.Data.List.Nodup
import NamedArguments.ArgumentMap

/-! Looking keys up in arguments and removing them. A removal takes away the
entry of its key and leaves every other entry where it is, so the answers for
other keys stay the same, and arguments lose exactly one entry with each key
that is found and removed. -/
namespace NamedArguments

theorem isAbsent_iff {v : Value} : v.isAbsent = true ↔ v = .absent := by
  cases v <;> simp [Value.isAbsent]

theorem apart_of_fresh {key : Value} {rest : List Value} (fresh : key.key ∉ rest.map Value.key) :
    ∀ other ∈ rest, other.key ≠ key.key := by
  intro other member alike
  exact fresh (List.mem_map.mpr ⟨other, member, alike⟩)

namespace ArgumentMap

/-- Whether a key is live with a value other than the marker. -/
def finds (args : ArgumentMap) (key : Value) : Bool :=
  args.entries.any fun entry => key.sameKey entry.key && !entry.value.isAbsent

/-- Arguments after some keys are removed, one after the other. -/
def without (args : ArgumentMap) (keys : List Value) : ArgumentMap :=
  keys.foldl (fun left key => (left.erase key).2) args

@[simp] theorem without_nil (args : ArgumentMap) : args.without [] = args := rfl

@[simp] theorem without_cons (args : ArgumentMap) (key : Value) (rest : List Value) :
    args.without (key :: rest) = (args.erase key).2.without rest := rfl

/-- The entry of a key is the live one, of which there is only one. -/
theorem entry?_eq_some_iff (args : ArgumentMap) (key : Value) (entry : MapEntry) :
    args.entry? key = some entry ↔ entry ∈ args.entries ∧ key.key = entry.key.key := by
  constructor
  · intro found
    unfold entry? at found
    exact ⟨List.mem_of_find?_eq_some found, by simpa using List.find?_some found⟩
  · rintro ⟨member, same⟩
    cases found : args.entry? key with
    | none =>
      have apart := List.find?_eq_none.mp found entry member
      exact absurd (Value.sameKey_iff.mpr same) apart
    | some other =>
      unfold entry? at found
      have inside := List.mem_of_find?_eq_some found
      have alike : key.key = other.key.key := by simpa using List.find?_some found
      exact congrArg some
        (List.inj_on_of_nodup_map args.distinct inside member (alike.symm.trans same))

theorem lookup_of_mem {args : ArgumentMap} {key : Value} {entry : MapEntry}
    (member : entry ∈ args.entries) (same : key.key = entry.key.key) :
    args.lookup key = entry.value := by
  have found := (entry?_eq_some_iff args key entry).mpr ⟨member, same⟩
  simp [lookup, found]

/-- A key is found exactly when looking it up gives anything but the marker. -/
theorem finds_eq (args : ArgumentMap) (key : Value) :
    args.finds key = !(args.lookup key).isAbsent := by
  cases found : args.entry? key with
  | none =>
    have apart := List.find?_eq_none.mp found
    have unfound : args.finds key = false := by
      refine List.any_eq_false.mpr fun entry member => ?_
      simp [Bool.not_eq_true _ ▸ apart entry member]
    simp [unfound, lookup, found, Value.isAbsent]
  | some entry =>
    obtain ⟨member, same⟩ := (entry?_eq_some_iff args key entry).mp found
    rw [lookup_of_mem member same]
    apply Bool.eq_iff_iff.mpr
    constructor
    · intro finds
      obtain ⟨other, inside, held⟩ := List.any_eq_true.mp finds
      obtain ⟨alike, given⟩ := Bool.and_eq_true_iff.mp held
      have value := lookup_of_mem inside (Value.sameKey_iff.mp alike)
      rwa [← value, lookup_of_mem member same] at given
    · intro given
      exact List.any_eq_true.mpr
        ⟨entry, member, Bool.and_eq_true_iff.mpr ⟨Value.sameKey_iff.mpr same, given⟩⟩

theorem lookup_of_not_finds {args : ArgumentMap} {key : Value} (unfound : args.finds key = false) :
    args.lookup key = .absent := by
  rw [finds_eq, Bool.not_eq_false'] at unfound
  exact isAbsent_iff.mp unfound

/-- Whether a key is found depends on nothing but what identifies it. -/
theorem finds_congr (args : ArgumentMap) {key other : Value} (same : key.key = other.key) :
    args.finds key = args.finds other := by
  simp only [finds, Value.sameKey, same]

theorem finds_of_mem {args : ArgumentMap} {entry : MapEntry} (member : entry ∈ args.entries) :
    args.finds entry.key = !entry.value.isAbsent := by
  rw [finds_eq, lookup_of_mem member rfl]

@[simp] theorem finds_empty (key : Value) : empty.finds key = false := rfl

@[simp] theorem lookup_empty (key : Value) : empty.lookup key = .absent := rfl

@[simp] theorem entries_erase (args : ArgumentMap) (key : Value) :
    (args.erase key).2.entries = args.entries.filter fun entry => !key.sameKey entry.key := rfl

/-- Removing a key changes the answer for no other key. -/
theorem lookup_erase_of_ne (args : ArgumentMap) {key other : Value} (apart : other.key ≠ key.key) :
    (args.erase key).2.lookup other = args.lookup other := by
  have kept : entry? (args.erase key).2 other = args.entry? other := by
    unfold entry?
    simp only [entries_erase, List.find?_filter]
    congr 1
    funext entry
    by_cases same : other.key = entry.key.key
    · have different : key.key ≠ entry.key.key := fun alike => apart (same.trans alike.symm)
      simp [Value.sameKey, same, different]
    · simp [Value.sameKey, same]
  simp only [lookup, kept]

theorem finds_erase_of_ne (args : ArgumentMap) {key other : Value} (apart : other.key ≠ key.key) :
    (args.erase key).2.finds other = args.finds other := by
  simp only [finds_eq, lookup_erase_of_ne args apart]

/-- Exactly the entries of the keys removed are gone. -/
theorem entries_without (args : ArgumentMap) (keys : List Value) :
    (args.without keys).entries = args.entries.filter fun entry => !entry.key.inKeys keys := by
  induction keys generalizing args with
  | nil => simp [Value.inKeys]
  | cons key rest ih =>
    simp only [without_cons, ih, entries_erase, List.filter_filter]
    congr 1
    funext entry
    have turned : entry.key.sameKey key = key.sameKey entry.key := by
      simp only [Value.sameKey, eq_comm]
    simp [Value.inKeys, turned, Bool.and_comm]

/-- A key that arguments hold has just one entry. -/
theorem countP_sameKey {args : ArgumentMap} {key : Value} {entry : MapEntry}
    (member : entry ∈ args.entries) (same : key.key = entry.key.key) :
    args.entries.countP (fun entry => key.sameKey entry.key) = 1 := by
  have inside : key.key ∈ args.entries.map (·.key.key) :=
    List.mem_map.mpr ⟨entry, member, same.symm⟩
  rw [← List.count_eq_one_of_mem args.distinct inside, List.count, List.countP_map]
  refine List.countP_congr fun other _ => ?_
  simp only [Value.sameKey_iff, Function.comp_apply, beq_iff_eq]
  exact eq_comm

theorem size_erase_of_finds {args : ArgumentMap} {key : Value} (found : args.finds key = true) :
    (args.erase key).2.size + 1 = args.size := by
  obtain ⟨entry, member, held⟩ := List.any_eq_true.mp found
  have same := Value.sameKey_iff.mp (Bool.and_eq_true_iff.mp held).1
  have once := countP_sameKey member same
  have split := List.length_eq_countP_add_countP (fun entry => key.sameKey entry.key)
    (l := args.entries)
  have others : (args.erase key).2.size =
      args.entries.countP fun entry => ¬ key.sameKey entry.key = true := by
    rw [List.countP_eq_length_filter]
    exact congrArg List.length (List.filter_congr fun other _ => by
      cases key.sameKey other.key <;> rfl)
  have whole : args.size = args.entries.length := rfl
  omega

/-- Removing the found ones among different keys makes arguments smaller by
their number. -/
theorem size_without_found (args : ArgumentMap) (keys : List Value)
    (distinct : (keys.map Value.key).Nodup) :
    (args.without (keys.filter args.finds)).size + keys.countP args.finds = args.size := by
  induction keys generalizing args with
  | nil => rfl
  | cons key rest ih =>
    obtain ⟨fresh, distinctRest⟩ := List.nodup_cons.mp distinct
    cases found : args.finds key with
    | false => simpa [found] using ih args distinctRest
    | true =>
      have same : ∀ other ∈ rest, (args.erase key).2.finds other = args.finds other :=
        fun other member => finds_erase_of_ne args (apart_of_fresh fresh other member)
      have smaller := ih (args.erase key).2 distinctRest
      rw [List.filter_congr same, List.countP_congr fun other member => by rw [same other member]]
        at smaller
      have shrunk := size_erase_of_finds found
      simp only [List.filter_cons, found, ↓reduceIte, without_cons, List.countP_cons]
      omega

/-- Of its own entries, arguments without the found ones among some keys lack
those of these keys that hold more than the marker. -/
theorem inKeys_found {args : ArgumentMap} {entry : MapEntry} (keys : List Value)
    (member : entry ∈ args.entries) :
    entry.key.inKeys (keys.filter args.finds) =
      (entry.key.inKeys keys && !entry.value.isAbsent) := by
  rw [← finds_of_mem member]
  simp only [Value.inKeys, List.any_filter]
  apply Bool.eq_iff_iff.mpr
  simp only [List.any_eq_true, Bool.and_eq_true, Value.sameKey_iff]
  constructor
  · rintro ⟨key, inside, found, same⟩
    exact ⟨⟨key, inside, same⟩, by rwa [finds_congr args same]⟩
  · rintro ⟨⟨key, inside, same⟩, found⟩
    exact ⟨key, inside, by rwa [← finds_congr args same], same⟩

end ArgumentMap
end NamedArguments
