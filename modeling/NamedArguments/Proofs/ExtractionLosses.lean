import NamedArguments.Proofs.ExtractionSlots

/-! Which values a success loses. The slots cleared begin at the number of keys
found and not at the first key that is not found, so each optional key without
a value that stands before this number costs one value behind it. Required keys
come first and are all found, and their values stay. -/
namespace NamedArguments.Extraction
open Settings (Surroundings Store Loaded)

/-- The found keys, with their slots, for which a buffer holds the marker. -/
def lost (args : ArgumentMap) (after : Buffer) (declared : List Value) : List (Value × Nat) :=
  declared.zipIdx.filter fun (key, index) => args.finds key && (after.slot index).any Value.isAbsent

/-- The keys that are not found, with their slots, that stand before a count. -/
def gaps (args : ArgumentMap) (base count : Nat) (optional : List Value) : List (Value × Nat) :=
  (optional.zipIdx base).filter fun (key, index) => !args.finds key && decide (index < count)

section Counting
variable {α : Type}

/-- As many members with a property stand behind its count as members without
it stand before. -/
theorem countP_drop_countP (holds : α → Bool) (members : List α) :
    (members.drop (members.countP holds)).countP holds =
      (members.take (members.countP holds)).countP fun member => !holds member := by
  have bounded : members.countP holds ≤ members.length := List.countP_le_length
  have front : (members.take (members.countP holds)).length = members.countP holds :=
    List.length_take_of_le bounded
  have split := List.length_eq_countP_add_countP holds (l := members.take (members.countP holds))
  have others : (members.take (members.countP holds)).countP (fun member => ¬ holds member = true) =
      (members.take (members.countP holds)).countP fun member => !holds member :=
    List.countP_congr fun member _ => by simp
  have whole := congrArg (List.countP holds) (List.take_append_drop (members.countP holds) members)
  rw [List.countP_append] at whole
  omega

/-- The members with a property are the first ones exactly where none stands
behind their number. -/
theorem filter_prefix_iff (holds : α → Bool) (members : List α) :
    members.filter holds <+: members ↔ (members.drop (members.countP holds)).countP holds = 0 := by
  have whole := congrArg (List.countP holds) (List.take_append_drop (members.countP holds) members)
  rw [List.countP_append] at whole
  constructor
  · intro first
    have same := List.prefix_iff_eq_take.mp first
    rw [← List.countP_eq_length_filter] at same
    have all : (members.take (members.countP holds)).countP holds = members.countP holds := by
      rw [← same, List.countP_filter]
      simp only [Bool.and_self]
    omega
  · intro none
    have front : (members.take (members.countP holds)).length = members.countP holds :=
      List.length_take_of_le List.countP_le_length
    have all : ∀ member ∈ members.take (members.countP holds), holds member = true :=
      List.countP_eq_length.mp (by omega)
    have parts := List.filter_append (p := holds) (members.take (members.countP holds))
      (members.drop (members.countP holds))
    rw [List.take_append_drop, List.filter_eq_self.mpr all, List.filter_eq_nil_iff.mpr
      (List.countP_eq_zero.mp none), List.append_nil] at parts
    rw [parts]
    exact List.take_prefix _ _

theorem length_filter_zipIdx_lt (holds : α → Bool) (members : List α) (base count : Nat) :
    ((members.zipIdx base).filter fun (member, index) =>
      holds member && decide (index < base + count)).length = (members.take count).countP holds := by
  induction members generalizing base count with
  | nil => simp
  | cons member rest ih =>
    cases count with
    | zero =>
      rw [List.take_zero, List.countP_nil, List.length_eq_zero_iff, List.filter_eq_nil_iff]
      rintro ⟨other, index⟩ inside
      have behind := (List.mk_mem_zipIdx_iff_le_and_getElem?_sub.mp inside).1
      simp [behind]
    | succ count =>
      have next : base + (count + 1) = base + 1 + count := by omega
      have here : base < base + 1 + count := by omega
      rw [List.zipIdx_cons, next, List.filter_cons, List.take_succ_cons, List.countP_cons]
      cases value : holds member <;> simp [value, here, ih]

theorem length_filter_zipIdx_ge (holds : α → Bool) (members : List α) (base count : Nat) :
    ((members.zipIdx base).filter fun (member, index) =>
      holds member && decide (base + count ≤ index)).length = (members.drop count).countP holds := by
  induction members generalizing base count with
  | nil => simp
  | cons member rest ih =>
    cases count with
    | zero =>
      have all : ∀ pair ∈ (member :: rest).zipIdx base, base ≤ pair.2 := fun pair inside =>
        (List.mk_mem_zipIdx_iff_le_and_getElem?_sub.mp inside).1
      have same : (((member :: rest).zipIdx base).filter fun (member, index) =>
          holds member && decide (base + 0 ≤ index)) =
          ((member :: rest).zipIdx base).filter (holds ∘ Prod.fst) :=
        List.filter_congr fun pair inside => by simp [all pair inside]
      rw [same, ← List.countP_eq_length_filter, ← List.countP_map, List.zipIdx_map_fst, List.drop_zero]
    | succ count =>
      have next : base + (count + 1) = base + 1 + count := by omega
      have before : ¬ base + 1 + count ≤ base := by omega
      rw [List.zipIdx_cons, next, List.filter_cons, List.drop_succ_cons]
      simp [before, ih]

end Counting

section Success
variable {args : ArgumentMap} {declared : List Value} {slots after : Buffer} {count : Nat}

/-- What a success leaves in the slots of declared keys. -/
def Kept (args : ArgumentMap) (declared : List Value) (count : Nat) (after : Buffer) : Prop :=
  ∀ index key, declared[index]? = some key →
    after.slot index = some (if index < count then args.lookup key else .absent)

theorem kept_of_filled (filled : slots.Filled after ((declared.map args.lookup).take count ++
    List.replicate (declared.length - count) .absent)) : Kept args declared count after := by
  intro index key declares
  obtain ⟨inside, _⟩ := List.getElem?_eq_some_iff.mp declares
  refine filled.front index _ ?_
  by_cases before : index < count
  · have within : index < ((declared.map args.lookup).take count).length := by
      rw [List.length_take, List.length_map]
      omega
    rw [List.getElem?_append_left within, List.getElem?_take_of_lt before, List.getElem?_map, declares,
      if_pos before, Option.map_some]
  · have bounded : ((declared.map args.lookup).take count).length = count := by
      rw [List.length_take, List.length_map]
      omega
    have cleared : index - count < declared.length - count := by omega
    rw [List.getElem?_append_right (by omega), bounded, List.getElem?_replicate, if_pos cleared,
      if_neg before]

theorem lost_eq (kept : Kept args declared count after) :
    lost args after declared =
      declared.zipIdx.filter fun (key, index) => args.finds key && decide (0 + count ≤ index) := by
  refine List.filter_congr fun ⟨key, index⟩ member => ?_
  have slot := kept index key (List.mk_mem_zipIdx_iff_getElem?.mp member)
  have found := ArgumentMap.finds_eq args key
  by_cases before : index < count
  · have given : ¬ 0 + count ≤ index := by omega
    cases absent : (args.lookup key).isAbsent <;> simp_all
  · simp [slot, before, Nat.le_of_not_lt before, Value.isAbsent]

/-- Every found key still has its value exactly where none is lost. -/
theorem all_kept_iff (kept : Kept args declared count after) :
    (∀ index key, declared[index]? = some key → args.finds key = true →
      after.slot index = some (args.lookup key)) ↔ lost args after declared = [] := by
  rw [lost, List.filter_eq_nil_iff]
  constructor
  · rintro all ⟨key, index⟩ member both
    obtain ⟨found, cleared⟩ := Bool.and_eq_true_iff.mp both
    rw [all index key (List.mk_mem_zipIdx_iff_getElem?.mp member) found] at cleared
    rw [ArgumentMap.finds_eq] at found
    simp_all
  · intro none index key declares found
    have slot := kept index key declares
    have uncleared := none (key, index) (List.mk_mem_zipIdx_iff_getElem?.mpr declares)
    by_cases before : index < count
    · rwa [if_pos before] at slot
    · rw [if_neg before] at slot
      simp [slot, found, Value.isAbsent] at uncleared

end Success

/-- A success with values written finds all required keys, answers the number of
all found ones, and leaves the buffer with the answers of the first keys. -/
theorem success_kept {around : Surroundings} {store : Store} {loaded : Loaded} {lines : List Line}
    {args : ArgumentMap} {required optional : List Value} {others : Value} {slots : Buffer}
    {request : Request} {count : Nat}
    (valid : (Schema.ofLists required optional others).validate = .ok ())
    (loads : Settings.ensure around store = .ok (loaded, lines))
    (writing : (request.modes (some slots)).write = true)
    (succeeds : (extract around store (some args) (.ofLists required optional others) (some slots)
      request).outcome = .ok count) :
    (∀ key ∈ required, args.finds key = true) ∧ count = (required ++ optional).countP args.finds ∧
      ∃ after, (extract around store (some args) (.ofLists required optional others) (some slots)
          request).buffer = some after ∧ Kept args (required ++ optional) count after := by
  obtain ⟨ending, exit, ran⟩ := extract_exit around store loaded lines (some args) required optional
    others (some slots) request valid loads
  rw [ran] at succeeds ⊢
  cases exit with
  | unfit fault checks faulty => cases succeeds
  | missing fits before after keyword declared found absent => cases succeeds
  | leftOver fits present found closed surplus => cases succeeds
  | counted fits found complete =>
    cases succeeds
    obtain ⟨after, same, filled⟩ := settled_filled writing (some args) required optional slots
    rw [← List.length_append] at filled
    exact ⟨found, rfl, after, same, kept_of_filled filled⟩

/-- As many found keys lose their value to the clearing as optional keys before
the count have none. So every found key keeps its value in its own slot exactly
where the found optional keys are the first ones, and a required key always
keeps it. -/
theorem losses_exact (around : Surroundings) (store : Store) (loaded : Loaded) (lines : List Line)
    (args : ArgumentMap) (required optional : List Value) (others : Value) (slots : Buffer)
    (request : Request) (count : Nat)
    (valid : (Schema.ofLists required optional others).validate = .ok ())
    (loads : Settings.ensure around store = .ok (loaded, lines))
    (writing : (request.modes (some slots)).write = true)
    (succeeds : (extract around store (some args) (.ofLists required optional others) (some slots)
      request).outcome = .ok count) :
    ∃ after, (extract around store (some args) (.ofLists required optional others) (some slots)
        request).buffer = some after ∧
      (lost args after (required ++ optional)).length =
        (gaps args required.length count optional).length ∧
      ((∀ index key, (required ++ optional)[index]? = some key → args.finds key = true →
        after.slot index = some (args.lookup key)) ↔ optional.filter args.finds <+: optional) ∧
      ∀ index key, required[index]? = some key →
        args.finds key = true ∧ after.slot index = some (args.lookup key) := by
  obtain ⟨found, counted, after, same, kept⟩ := success_kept valid loads writing succeeds
  have all : required.countP args.finds = required.length := List.countP_eq_length.mpr found
  rw [List.countP_append, all] at counted
  have behind : (lost args after (required ++ optional)).length =
      (optional.drop (optional.countP args.finds)).countP args.finds := by
    rw [lost_eq kept, length_filter_zipIdx_ge, counted, List.drop_length_add_append]
  have before : (gaps args required.length count optional).length =
      (optional.take (optional.countP args.finds)).countP fun key => !args.finds key := by
    rw [gaps, counted, length_filter_zipIdx_lt fun key => !args.finds key]
  refine ⟨after, same, ?_, ?_, fun index key declares => ?_⟩
  · rw [behind, before, countP_drop_countP]
  · rw [all_kept_iff kept, ← List.length_eq_zero_iff, behind, filter_prefix_iff]
  · obtain ⟨inside, _⟩ := List.getElem?_eq_some_iff.mp declares
    have slot := kept index key (by rwa [List.getElem?_append_left inside])
    rw [if_pos (by omega)] at slot
    exact ⟨found key (List.mem_of_getElem? declares), slot⟩

/-- Behind a missing age the city is lost; declared before the age it stays. -/
theorem losses_exact_each_way :
    let args : ArgumentMap := .ofList [(.text "name", .null), (.text "city", .bool true)]
    let schema (optional : List Value) := Schema.ofLists [.text "name"] optional (.bool false)
    let result (optional : List Value) := extract ⟨[], .empty⟩ (.loaded untouched) (some args)
      (schema optional) (some (.unassigned 3)) .silent
    (schema [.text "age", .text "city"]).validate = .ok () ∧
      (result [.text "age", .text "city"]).outcome = .ok 2 ∧
      (∃ after, (result [.text "age", .text "city"]).buffer = some after ∧
        (lost args after [.text "name", .text "age", .text "city"]).length = 1) ∧
      (schema [.text "city", .text "age"]).validate = .ok () ∧
      (result [.text "city", .text "age"]).outcome = .ok 2 ∧
      ∃ after, (result [.text "city", .text "age"]).buffer = some after ∧
        after.slot 1 = some (.bool true) := by
  intro args schema result
  have exact := fun optional valid => losses_exact ⟨[], .empty⟩ (.loaded untouched) untouched [] args
    [.text "name"] optional (.bool false) (.unassigned 3) .silent 2 valid rfl rfl
  refine ⟨rfl, rfl, ?_, rfl, rfl, ?_⟩
  · obtain ⟨after, same, balanced, _⟩ := exact [.text "age", .text "city"] rfl rfl
    exact ⟨after, same, balanced⟩
  · obtain ⟨after, same, _, kept, _⟩ := exact [.text "city", .text "age"] rfl rfl
    have first : [Value.text "city", Value.text "age"].filter args.finds <+:
        [Value.text "city", Value.text "age"] := ⟨[.text "age"], rfl⟩
    exact ⟨after, same, kept.mpr first 1 (.text "city") rfl rfl⟩

end NamedArguments.Extraction
