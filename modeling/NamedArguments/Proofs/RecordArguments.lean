import Mathlib.Data.List.Perm.Basic
import NamedArguments.ArgumentMap.Record
import NamedArguments.Proofs.InsertionOrder
import NamedArguments.Proofs.KeywordMessages
import NamedArguments.Proofs.MappingMirrors
import NamedArguments.Proofs.MemberOrder

/-! Arguments that hold the same in another order. They answer every question
alike but the one for their keys, so that an extraction takes the same course
over them. Arguments made from a record differ from those made from the pairs
that define it in this way alone. -/
namespace NamedArguments

/-- A key that spells a list position. -/
def IndexKey (key : Value) : Prop := ∃ n ≤ 4294967294, key = .text (toString n)

theorem indexKey_text_iff (name : String) :
    IndexKey (.text name) ↔ (Text.position? name).isSome = true := by
  constructor
  · rintro ⟨n, inside, same⟩
    cases same
    have spelled : Text.position? (toString n) = some n :=
      Text.position?_eq_some_iff.mpr ⟨rfl, Nat.lt_succ_of_le inside⟩
    rw [spelled]
    rfl
  · intro spelled
    obtain ⟨n, spelled⟩ := Option.isSome_iff_exists.mp spelled
    obtain ⟨rfl, inside⟩ := Text.position?_eq_some_iff.mp spelled
    exact ⟨n, Nat.le_of_lt_succ inside, rfl⟩

instance : DecidablePred IndexKey
  | .text name => decidable_of_iff _ (indexKey_text_iff name).symm
  | .undefined | .null | .bool _ | .number _ | .bigint _ | .symbol .. | .absent | .function _
  | .builtin _ | .list .. | .object .. | .ancestor _ => isFalse nofun

/-- A member as an argument. -/
def Members.argument (member : String × Value) : Value × Value := (.text member.1, member.2)

namespace ArgumentMap

theorem key_text_eq_iff {name : String} {v : Value} :
    (Value.text name).key = v.key ↔ v = .text name := by
  constructor
  · intro same
    cases v <;> simp_all [Value.key]
  · rintro rfl
    rfl

theorem has_text_iff {args : ArgumentMap} {members : Members}
    (listed : args.toList = members.map Members.argument) (name : String) :
    args.has (.text name) = members.any (·.1 == name) := by
  apply Bool.eq_iff_iff.mpr
  simp only [has_iff, key_text_eq_iff, List.any_eq_true, beq_iff_eq]
  constructor
  · rintro ⟨entry, held, keyed⟩
    have inside : (entry.key, entry.value) ∈ members.map Members.argument :=
      listed ▸ List.mem_map_of_mem held
    obtain ⟨member, found, same⟩ := List.mem_map.mp inside
    refine ⟨member, found, Value.text.inj ?_⟩
    exact (congrArg Prod.fst same).trans keyed
  · rintro ⟨member, found, rfl⟩
    have inside : Members.argument member ∈ args.toList := listed ▸ List.mem_map_of_mem found
    obtain ⟨entry, held, same⟩ := List.mem_map.mp inside
    exact ⟨entry, held, congrArg Prod.fst same⟩

/-- A name that is live keeps its place and takes the value, any other comes last. -/
theorem toList_set_text {args : ArgumentMap} {members : Members}
    (listed : args.toList = members.map Members.argument) (name : String) (v : Value) :
    (args.set (.text name) v).toList = (members.note name v).map Members.argument := by
  have held := has_text_iff listed name
  unfold Members.note
  split
  next known =>
    let renewed (pair : Value × Value) : Value × Value :=
      if (Value.text name).sameKey pair.1 then (pair.1, v) else pair
    have entries : (args.set (.text name) v).toList = args.toList.map renewed := by
      rw [toList, (set_of_has (held.trans known) v).1, toList, List.map_map, List.map_map]
      refine List.map_congr_left fun entry _ => ?_
      simp only [Function.comp_apply, MapEntry.overwrite, renewed]
      split <;> rfl
    rw [entries, listed, List.map_map, List.map_map]
    refine List.map_congr_left fun member _ => ?_
    simp only [Function.comp_apply, renewed, Members.argument, Members.overwrite, Value.sameKey_iff,
      key_text_eq_iff, Value.text.injEq]
    split
    next same => rw [same]
    next => rfl
  next absent =>
    rw [← held] at absent
    rw [toList, (set_of_not_has absent v).1, List.map_append, List.map_append, ← listed]
    rfl

/-- Arguments list the members that were noted. -/
theorem toList_ofList_texts (pairs : List (String × Value)) :
    (ofList (pairs.map Members.argument)).toList = (Members.noted pairs).map Members.argument := by
  induction pairs using List.reverseRecOn with
  | nil => rfl
  | append_singleton pairs pair ih =>
    have set : ofList ((pairs ++ [pair]).map Members.argument) =
        (ofList (pairs.map Members.argument)).set (.text pair.1) pair.2 := by
      simp [ofList, Members.argument]
    rw [set, toList_set_text ih, Members.noted_concat]

/-- Arguments from a record list its members. -/
theorem toList_ofRecord (pairs : List (String × Value)) :
    (ofRecord pairs).toList = (Members.ofList pairs).map Members.argument := by
  have listed := toList_ofList_texts (Members.ofList pairs)
  rw [Members.noted_eq (Members.names_ofList pairs)] at listed
  exact listed

/-- Two arguments hold the same under the same texts, in whatever order. -/
structure Rearranged (one other : ArgumentMap) : Prop where
  perm : one.toList.Perm other.toList
  texts : ∀ pair ∈ one.toList, ∃ name, pair.1 = .text name

/-- The same texts, in whatever order. -/
structure SameTexts (one other : List Value) : Prop where
  perm : one.Perm other
  texts : ∀ key ∈ one, ∃ name, key = .text name

theorem listings_sameTexts : Listings SameTexts :=
  ⟨fun kept same => ⟨same.perm.filter kept, fun key inside =>
      same.texts key (List.mem_filter.mp inside).1⟩,
    fun same => same.perm.length_eq⟩

theorem toList_erase (args : ArgumentMap) (key : Value) :
    (args.erase key).2.toList = args.toList.filter fun pair => !key.sameKey pair.1 := by
  simp [toList, List.filter_map, Function.comp_def]

/-- A pair of a live key and its value decides what the key gives. -/
theorem lookup_of_mem_toList {args : ArgumentMap} {pair : Value × Value} {key : Value}
    (listed : pair ∈ args.toList) (same : key.key = pair.1.key) : args.lookup key = pair.2 := by
  obtain ⟨entry, held, rfl⟩ := List.mem_map.mp listed
  exact lookup_of_mem held same

theorem lookup_of_not_listed {args : ArgumentMap} {key : Value}
    (apart : ∀ pair ∈ args.toList, key.key ≠ pair.1.key) : args.lookup key = .absent := by
  refine lookup_of_not_finds (List.any_eq_false.mpr fun entry held finds => ?_)
  have same := Value.sameKey_iff.mp (Bool.and_eq_true_iff.mp finds).1
  exact apart _ (List.mem_map_of_mem held) same

namespace Rearranged
variable {one other : ArgumentMap}

theorem lookup (rearranged : Rearranged one other) (key : Value) :
    one.lookup key = other.lookup key := by
  by_cases listed : ∃ pair ∈ one.toList, key.key = pair.1.key
  · obtain ⟨pair, inside, same⟩ := listed
    rw [lookup_of_mem_toList inside same,
      lookup_of_mem_toList (rearranged.perm.mem_iff.mp inside) same]
  · have apart : ∀ pair ∈ one.toList, key.key ≠ pair.1.key := fun pair inside same =>
      listed ⟨pair, inside, same⟩
    rw [lookup_of_not_listed apart,
      lookup_of_not_listed fun pair inside => apart pair (rearranged.perm.mem_iff.mpr inside)]

theorem erase (rearranged : Rearranged one other) (key : Value) :
    Rearranged (one.erase key).2 (other.erase key).2 := by
  refine ⟨?_, fun pair inside => ?_⟩
  · rw [toList_erase, toList_erase]
    exact rearranged.perm.filter _
  · rw [toList_erase] at inside
    exact rearranged.texts pair (List.mem_filter.mp inside).1

theorem size (rearranged : Rearranged one other) : one.size = other.size := by
  simpa [ArgumentMap.size, toList] using rearranged.perm.length_eq

theorem keys (rearranged : Rearranged one other) : SameTexts one.keys other.keys := by
  have listed : ∀ args : ArgumentMap, args.keys = args.toList.map Prod.fst := fun args => by
    simp [ArgumentMap.keys, toList]
  refine ⟨?_, fun key inside => ?_⟩
  · rw [listed, listed]
    exact rearranged.perm.map _
  · rw [listed] at inside
    obtain ⟨pair, held, rfl⟩ := List.mem_map.mp inside
    exact rearranged.texts pair held

end Rearranged

theorem mapping_matches : mapping.Matches mapping Rearranged SameTexts :=
  ⟨fun key _ _ rearranged => ⟨rearranged.lookup key, rearranged⟩,
    fun key _ _ rearranged => rearranged.erase key,
    fun rearranged => ⟨congrArg MappingSize.count rearranged.size, rearranged⟩,
    fun rearranged => ⟨rearranged.keys, rearranged⟩⟩

/-- Written pairs are read as they are meant. -/
theorem ofEntries_written (outer : Identity) (items : List (Identity × String × Value)) :
    ofEntries (.list outer (items.map fun item => .list item.1 [.text item.2.1, item.2.2])) =
      .ok (ofList ((items.map Prod.snd).map Members.argument)) := by
  have read : (items.map fun item => Value.list item.1 [.text item.2.1, item.2.2]).mapM pairOf? =
      some ((items.map Prod.snd).map Members.argument) := by
    induction items with
    | nil => rfl
    | cons item rest ih =>
      rw [List.map_cons, List.mapM_cons, ih]
      rfl
  simp only [ofEntries, Value.sequence?, Option.bind_some, read]

end ArgumentMap

theorem Members.mem_argument_iff {members : Members} {key v : Value} :
    (key, v) ∈ members.map argument ↔ ∃ name, key = .text name ∧ (name, v) ∈ members := by
  simp [argument, eq_comm, and_comm]

/-- Texts that nobody expected are listed in a fault. -/
theorem raised_ofUnknown_texts (names : List String) :
    Fault.raised (Fault.ofUnknown (names.map .text)) = .unknown (.keywords (names.map .text)) := by
  have keyed : names.map Value.text = (names.map Keyword.text).map Keyword.value := by
    simp [Keyword.value, Function.comp_def]
  rw [keyed, Fault.ofUnknown, Fault.rejected_keywords]
  rfl

namespace ArgumentMap

theorem SameTexts.names {one other : List Value} (same : SameTexts one other) :
    ∃ names others : List String, names.Perm others ∧ one = names.map .text ∧
      other = others.map .text := by
  have named : ∀ keys : List Value, (∀ key ∈ keys, ∃ name, key = .text name) →
      ∃ names : List String, keys = names.map .text := by
    intro keys texts
    induction keys with
    | nil => exact ⟨[], rfl⟩
    | cons key rest ih =>
      obtain ⟨name, rfl⟩ := texts key List.mem_cons_self
      obtain ⟨names, rfl⟩ := ih fun key inside => texts key (List.mem_cons_of_mem _ inside)
      exact ⟨name :: names, rfl⟩
  obtain ⟨names, rfl⟩ := named one same.texts
  obtain ⟨others, rfl⟩ := named other fun key inside => same.texts key (same.perm.mem_iff.mpr inside)
  have injective : Function.Injective Value.text := fun _ _ => Value.text.inj
  exact ⟨names, others, (List.map_perm_map_iff injective).mp same.perm, rfl, rfl⟩

/-- Extractions that end with texts left over list them in some order. -/
theorem outcome_of_sameTexts {one other : Except Fault Nat}
    (same : Extraction.SameOutcome SameTexts one other) :
    one = other ∨ ∃ names others : List String, names.Perm others ∧
      one = .error (.unknown (.keywords (names.map .text))) ∧
      other = .error (.unknown (.keywords (others.map .text))) := by
  cases same with
  | same => exact Or.inl rfl
  | unknown listed =>
    obtain ⟨names, others, perm, rfl, rfl⟩ := listed.names
    rw [raised_ofUnknown_texts, raised_ofUnknown_texts]
    exact Or.inr ⟨names, others, perm, rfl, rfl⟩

/-- Arguments from a record hold the same as those from the pairs that define
it. -/
theorem rearranged_ofRecord (pairs : List (String × Value)) :
    Rearranged (ofList (pairs.map Members.argument)) (ofRecord pairs) := by
  obtain ⟨front, arranged⟩ := Members.arranged_ofList pairs
  refine ⟨?_, fun pair inside => ?_⟩
  · rw [toList_ofList_texts, toList_ofRecord]
    exact (arranged.perm.map _).symm
  · rw [toList_ofList_texts] at inside
    obtain ⟨member, -, rfl⟩ := List.mem_map.mp inside
    exact ⟨member.1, rfl⟩

/-- Arguments from a record list the keys that spell list positions first, by
these, and the others as arguments from pairs do. -/
theorem order_ofRecord (pairs : List (String × Value)) :
    let listed := (ofList (pairs.map Members.argument)).toList
    ∃ front, (ofRecord pairs).toList =
        front ++ listed.filter (fun pair => !decide (IndexKey pair.1)) ∧
      front.Perm (listed.filter fun pair => decide (IndexKey pair.1)) ∧
      front.Pairwise fun one other => ∃ m n : Nat, one.1 = .text (toString m) ∧
        other.1 = .text (toString n) ∧ m < n := by
  intro listed
  obtain ⟨front, arranged⟩ := Members.arranged_ofList pairs
  have spelled : ∀ member : String × Value,
      decide (IndexKey (Members.argument member).1) = Members.isIndex member := fun member => by
    apply Bool.eq_iff_iff.mpr
    simp only [decide_eq_true_eq]
    exact indexKey_text_iff member.1
  have noted : listed = (Members.noted pairs).map Members.argument := toList_ofList_texts pairs
  refine ⟨front.map Members.argument, ?_, ?_, ?_⟩
  · rw [toList_ofRecord, arranged.split, noted, List.map_append, List.filter_map]
    simp only [Function.comp_def, spelled]
  · rw [noted, List.filter_map]
    simp only [Function.comp_def, spelled]
    exact arranged.indexed.map _
  · refine List.pairwise_map.mpr (arranged.ascending.imp ?_)
    rintro one other ⟨m, n, first, second, lower⟩
    exact ⟨m, n, congrArg Value.text (Text.position?_eq_some_iff.mp first).1,
      congrArg Value.text (Text.position?_eq_some_iff.mp second).1, lower⟩

example : (ofRecord [("x", .null), ("10", .null), ("9", .null), ("09", .null)]).keys =
    [.text "9", .text "10", .text "x", .text "09"] := rfl

end ArgumentMap

/-- Arguments from a record agree with arguments from the list of pairs that
defines it. Both hold the last value given to each name; the record's list the
keys that spell the numbers up to 4294967294 in front, in ascending order, and
all others in the order in which they came. Whatever is extracted from the two
ends the same and leaves the same, except that unknown keys are listed in the
order in which each has them. -/
theorem record_agrees_with_entries (outer : Identity) (items : List (Identity × String × Value)) :
    let pairs := items.map Prod.snd
    let record := ArgumentMap.ofRecord pairs
    ∃ entries, ArgumentMap.ofEntries (.list outer
        (items.map fun item => .list item.1 [.text item.2.1, item.2.2])) = .ok entries ∧
      (∀ key v, (key, v) ∈ entries.toList ↔
        ∃ name, key = .text name ∧ pairs.reverse.lookup name = some v) ∧
      entries.toList.Perm record.toList ∧
      (∃ front, record.toList =
          front ++ entries.toList.filter (fun pair => !decide (IndexKey pair.1)) ∧
        front.Perm (entries.toList.filter fun pair => decide (IndexKey pair.1)) ∧
        front.Pairwise fun one other => ∃ m n : Nat, one.1 = .text (toString m) ∧
          other.1 = .text (toString n) ∧ m < n) ∧
      ∀ (around : Settings.Surroundings) (store : Settings.Store) (schema : Schema)
        (buffer : Option Buffer) (request : Extraction.Request),
        let extract (args : ArgumentMap) := Extraction.underSettings around store
          (some ArgumentMap.mapping) schema buffer request args
        (extract entries).buffer = (extract record).buffer ∧
        (extract entries).store = (extract record).store ∧
        (extract entries).lines = (extract record).lines ∧
        (extract entries).mapping.toList.Perm (extract record).mapping.toList ∧
        ((extract entries).outcome = (extract record).outcome ∨
          ∃ names others : List String, names.Perm others ∧
            (extract entries).outcome = .error (.unknown (.keywords (names.map .text))) ∧
            (extract record).outcome = .error (.unknown (.keywords (others.map .text)))) := by
  intro pairs record
  have rearranged := ArgumentMap.rearranged_ofRecord pairs
  refine ⟨_, ArgumentMap.ofEntries_written outer items, ?_, rearranged.perm,
    ArgumentMap.order_ofRecord pairs, ?_⟩
  · intro key v
    rw [rearranged.perm.mem_iff, ArgumentMap.toList_ofRecord, Members.mem_argument_iff]
    simp only [Members.mem_iff_lookup (Members.names_ofList pairs), Members.lookup_ofList]
  · intro around store schema buffer request extract
    obtain ⟨outcome, mapping, buffers, stores, lines⟩ := Extraction.underSettings_alike
      ArgumentMap.listings_sameTexts (.some ArgumentMap.mapping_matches) around store schema buffer
      request rearranged
    exact ⟨buffers, stores, lines, mapping.perm, ArgumentMap.outcome_of_sameTexts outcome⟩

end NamedArguments
