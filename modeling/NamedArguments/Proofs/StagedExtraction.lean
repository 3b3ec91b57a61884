import Mathlib.Data.List.Nodup
import NamedArguments.Proofs.ExtractionExits

/-! Extraction in two stages. A first schema that takes other keys leaves these
to a second one, and what comes out is what one extraction by both schemas
together makes of the same arguments, although that looks for all required keys
before any optional one. It rests on no key being declared twice, so that what
the first stage removes is nothing that the second looks for, and on no entry
holding the marker: such an entry would stay behind and be left over. -/
namespace NamedArguments

theorem DistinctKeywords.append {keys others : List Value} (first : DistinctKeywords keys)
    (second : DistinctKeywords others)
    (apart : (keys.map Value.key).Disjoint (others.map Value.key)) :
    DistinctKeywords (keys ++ others) where
  named := by
    intro key member
    rcases List.mem_append.mp member with early | late
    · exact first.named key early
    · exact second.named key late
  distinct := by
    rw [List.map_append]
    exact first.distinct.append second.distinct apart

theorem Value.inKeys_append (v : Value) (keys others : List Value) :
    v.inKeys (keys ++ others) = (v.inKeys keys || v.inKeys others) := List.any_append

theorem Value.inKeys_perm {keys others : List Value} (rearranged : keys.Perm others) (v : Value) :
    v.inKeys keys = v.inKeys others := rearranged.any_eq

namespace ArgumentMap

theorem eq_of_entries {args others : ArgumentMap} (entries : args.entries = others.entries)
    (next : args.next = others.next) : args = others := by
  cases args
  cases others
  cases entries
  cases next
  rfl

theorem next_without (args : ArgumentMap) (keys : List Value) :
    (args.without keys).next = args.next := by
  induction keys generalizing args with
  | nil => rfl
  | cons key rest ih => exact ih _

theorem without_append (args : ArgumentMap) (keys others : List Value) :
    args.without (keys ++ others) = (args.without keys).without others := List.foldl_append

/-- In which order keys are removed makes no difference. -/
theorem without_perm {keys others : List Value} (rearranged : keys.Perm others)
    (args : ArgumentMap) : args.without keys = args.without others := by
  refine eq_of_entries ?_ (by rw [next_without, next_without])
  simp only [entries_without, Value.inKeys_perm rearranged]

theorem finds_without (args : ArgumentMap) {keys : List Value} {key : Value}
    (outside : key.key ∉ keys.map Value.key) : (args.without keys).finds key = args.finds key := by
  induction keys generalizing args with
  | nil => rfl
  | cons first rest ih =>
    obtain ⟨apart, unlisted⟩ := not_or.mp (mt List.mem_cons.mpr outside)
    rw [without_cons, ih _ unlisted, finds_erase_of_ne args apart]

end ArgumentMap

namespace Extraction

open Settings (Surroundings Store Loaded)

/-- No entry holds the marker. -/
def Given (args : ArgumentMap) : Prop := ∀ entry ∈ args.entries, entry.value ≠ .absent

/-- An extraction is to consume keys, and its buffer is in order. -/
structure Orderly (loaded : Loaded) (buffer : Option Buffer) (request : Request)
    (declared : Nat) : Prop where
  consuming : (request.modes buffer).consume = true
  fits : checksBuffers loaded = true → Fits (request.modes buffer) buffer declared

/-- Where no entry holds the marker, something is in surplus exactly where some
key is unknown. -/
theorem surplus_iff {args : ArgumentMap} (given : Given args) (declared : List Value) :
    Surplus args declared ↔ unknownKeys args declared ≠ [] := by
  constructor
  · rintro ⟨entry, member, unsought⟩ none
    have inside : entry.key ∈ args.keys := List.mem_map.mpr ⟨entry, member, rfl⟩
    have known := List.filter_eq_nil_iff.mp none entry.key inside
    exact unsought ⟨by simpa using known, given entry member⟩
  · intro some
    obtain ⟨key, member⟩ := List.exists_mem_of_ne_nil _ some
    obtain ⟨inside, unknown⟩ := List.mem_filter.mp member
    obtain ⟨entry, held, rfl⟩ := List.mem_map.mp inside
    exact ⟨entry, held, fun both => by simp [both.1] at unknown⟩

section

variable {around : Surroundings} {store : Store} {loaded : Loaded} {lines : List Line}
  {args : Option ArgumentMap} {required optional : List Value} (others : Value)
  {buffer : Option Buffer} {request : Request}

theorem extract_of_missing (valid : DistinctKeywords (required ++ optional))
    (loads : Settings.ensure around store = .ok (loaded, lines))
    (orderly : Orderly loaded buffer request (required.length + optional.length))
    {before : List Value} (after : List Value) {keyword : Keyword}
    (split : required = before ++ keyword.value :: after)
    (found : ∀ key ∈ before, (handed args).finds key = true)
    (absent : (handed args).finds keyword.value = false) :
    (extract around store args (.ofLists required optional others) buffer request).outcome =
      .error (.missing keyword) := by
  obtain ⟨ending, exit, ran⟩ := extract_exit around store loaded lines args required optional others
    buffer request ((Schema.validate_ofLists_iff _ _ _).mpr valid) loads
  rw [ran]
  cases exit with
  | unfit fault checks faulty => exact absurd (orderly.fits checks) (not_fits_of_fault faulty)
  | missing _ earlier later other declared foundEarlier absentOther =>
    have first : required.find? (fun key => !(handed args).finds key) = some keyword.value := by
      rw [split]
      exact find?_missing found absent
    rw [declared, find?_missing foundEarlier absentOther] at first
    have same := congrArg Keyword.ofValue? (Option.some.inj first)
    simp only [Keyword.ofValue?_value, Option.some.injEq] at same
    rw [same]
  | leftOver _ _ all =>
    rw [all keyword.value (by simp [split])] at absent
    cases absent
  | counted _ all =>
    rw [all keyword.value (by simp [split])] at absent
    cases absent

/-- Where all required keys are found, all found keys are removed, and what is
left decides between a count and the fault of keys left over. -/
theorem extract_of_found (valid : DistinctKeywords (required ++ optional))
    (loads : Settings.ensure around store = .ok (loaded, lines))
    (orderly : Orderly loaded buffer request (required.length + optional.length))
    (found : ∀ key ∈ required, (handed args).finds key = true) :
    let result := extract around store args (.ofLists required optional others) buffer request
    let declared := required ++ optional
    result.store = .loaded loaded ∧
      result.mapping = (handed args).without (declared.filter (handed args).finds) ∧
      (others.isTruthy = true ∨ ¬ Surplus (handed args) declared →
        result.outcome = .ok (declared.countP (handed args).finds)) ∧
      (¬ (others.isTruthy = true ∨ ¬ Surplus (handed args) declared) →
        result.outcome =
          .error (Fault.raised (Fault.ofUnknown (unknownKeys (handed args) declared)))) := by
  obtain ⟨ending, exit, ran⟩ := extract_exit around store loaded lines args required optional others
    buffer request ((Schema.validate_ofLists_iff _ _ _).mpr valid) loads
  have removed : taken (request.modes buffer) (handed args) (required ++ optional) =
      (handed args).without ((required ++ optional).filter (handed args).finds) :=
    if_pos orderly.consuming
  simp only [ran, true_and]
  cases exit with
  | unfit fault checks faulty => exact absurd (orderly.fits checks) (not_fits_of_fault faulty)
  | missing _ before after keyword declared _ absent =>
    rw [found keyword.value (by simp [declared])] at absent
    cases absent
  | leftOver _ _ _ closed surplus =>
    refine ⟨removed, fun complete => ?_, fun _ => rfl⟩
    rcases complete with allowed | exact
    · rw [closed] at allowed
      cases allowed
    · exact absurd surplus exact
  | counted _ _ complete => exact ⟨removed, fun _ => rfl, fun overfull => absurd complete overfull⟩

end

/-- Arguments after a stage: what was declared and found is removed. -/
def remainder (args : ArgumentMap) (declared : List Value) : ArgumentMap :=
  args.without (declared.filter args.finds)

theorem remainder_empty (declared : List Value) : remainder .empty declared = .empty := by
  have nothing : declared.filter ArgumentMap.empty.finds = [] :=
    List.filter_eq_nil_iff.mpr (by simp)
  rw [remainder, nothing, ArgumentMap.without_nil]

/-- A key that is no key of the stage is found as before. -/
theorem finds_remainder (args : ArgumentMap) {declared next : List Value} {key : Value}
    (apart : (declared.map Value.key).Disjoint (next.map Value.key)) (member : key ∈ next) :
    (remainder args declared).finds key = args.finds key :=
  ArgumentMap.finds_without args fun removed =>
    apart ((List.filter_sublist.map Value.key).subset removed) (List.mem_map_of_mem member)

/-- Stages one after the other remove what one stage by all their keys removes. -/
theorem remainder_remainder (args : ArgumentMap) {first second whole : List Value}
    (apart : (first.map Value.key).Disjoint (second.map Value.key))
    (together : whole.Perm (first ++ second)) :
    remainder (remainder args first) second = remainder args whole := by
  have same : second.filter (remainder args first).finds = second.filter args.finds :=
    List.filter_congr fun key member => finds_remainder args apart member
  rw [remainder, same, remainder, ← ArgumentMap.without_append, ← List.filter_append, remainder]
  exact ArgumentMap.without_perm (together.filter args.finds).symm args

theorem entries_remainder {args : ArgumentMap} (given : Given args) (declared : List Value) :
    (remainder args declared).entries = args.entries.filter fun entry => !entry.key.inKeys declared := by
  rw [remainder, ArgumentMap.entries_without]
  refine List.filter_congr fun entry member => ?_
  have held : entry.value.isAbsent = false :=
    Bool.not_eq_true _ ▸ mt isAbsent_iff.mp (given entry member)
  rw [ArgumentMap.inKeys_found declared member, held]
  simp

theorem given_remainder {args : ArgumentMap} (given : Given args) (declared : List Value) :
    Given (remainder args declared) := by
  intro entry member
  rw [entries_remainder given] at member
  exact given entry (List.mem_filter.mp member).1

/-- What the second stage does not know of what the first one leaves is what both
do not know. -/
theorem unknownKeys_remainder {args : ArgumentMap} (given : Given args) {first second whole : List Value}
    (together : whole.Perm (first ++ second)) :
    unknownKeys (remainder args first) second = unknownKeys args whole := by
  simp only [unknownKeys, ArgumentMap.keys, entries_remainder given, List.filter_map, List.filter_filter]
  congr 1
  refine List.filter_congr fun entry _ => ?_
  simp [Value.inKeys_perm together, Value.inKeys_append, Bool.and_comm]

theorem countP_remainder (args : ArgumentMap) {first second whole : List Value}
    (apart : (first.map Value.key).Disjoint (second.map Value.key))
    (together : whole.Perm (first ++ second)) :
    first.countP args.finds + second.countP (remainder args first).finds = whole.countP args.finds := by
  have same : second.countP (remainder args first).finds = second.countP args.finds :=
    List.countP_congr fun key member => by rw [finds_remainder args apart member]
  rw [same, together.countP_eq, List.countP_append]

theorem declared_together (required optional requiredNext optionalNext : List Value) :
    ((required ++ requiredNext) ++ (optional ++ optionalNext)).Perm
      ((required ++ optional) ++ (requiredNext ++ optionalNext)) := by
  simp only [List.append_assoc]
  exact (List.perm_append_comm_assoc requiredNext optional optionalNext).append_left required

/-- What a stage finds of its own keys in the remainder was found before. -/
theorem found_together {args : ArgumentMap} {declared next keys more : List Value}
    (apart : (declared.map Value.key).Disjoint (next.map Value.key))
    (found : ∀ key ∈ keys, args.finds key = true) (within : ∀ key ∈ more, key ∈ next)
    (foundNext : ∀ key ∈ more, (remainder args declared).finds key = true) :
    ∀ key ∈ keys ++ more, args.finds key = true := by
  intro key member
  rcases List.mem_append.mp member with early | late
  · exact found key early
  · rw [← finds_remainder args apart (within key late)]
    exact foundNext key late

section

variable {around : Surroundings} {store storeNext : Store} {loaded : Loaded} {lines : List Line}
  {args remaining : Option ArgumentMap} {required optional requiredNext optionalNext : List Value}
  {othersNext : Value} {bufferNext bufferWhole : Option Buffer} {requestNext requestWhole : Request}

/-- A second stage over what a first one has left comes to what the whole comes
to, but for the keys that the first one has counted. -/
theorem second_stage (given : Given (handed args))
    (found : ∀ key ∈ required, (handed args).finds key = true)
    (handedOn : handed remaining = remainder (handed args) (required ++ optional))
    (apart : ((required ++ optional).map Value.key).Disjoint
      ((requiredNext ++ optionalNext).map Value.key))
    (valid : DistinctKeywords (required ++ optional))
    (validNext : DistinctKeywords (requiredNext ++ optionalNext))
    (loads : Settings.ensure around store = .ok (loaded, lines))
    (loadsNext : Settings.ensure around storeNext = .ok (loaded, []))
    (orderlyNext : Orderly loaded bufferNext requestNext
      (requiredNext.length + optionalNext.length))
    (orderlyWhole : Orderly loaded bufferWhole requestWhole
      ((required ++ requiredNext).length + (optional ++ optionalNext).length)) :
    let second := extract around storeNext remaining
      (.ofLists requiredNext optionalNext othersNext) bufferNext requestNext
    let whole := extract around store args
      (.ofLists (required ++ requiredNext) (optional ++ optionalNext) othersNext) bufferWhole
      requestWhole
    (∀ fault, second.outcome = .error fault → whole.outcome = .error fault) ∧
    (∀ more, second.outcome = .ok more →
      whole.outcome = .ok ((required ++ optional).countP (handed args).finds + more)) ∧
    ((∀ keyword, second.outcome ≠ .error (.missing keyword)) →
      second.mapping = whole.mapping) := by
  intro second whole
  have together := declared_together required optional requiredNext optionalNext
  have validWhole := (valid.append validNext apart).perm together.symm
  have required_next : ∀ key ∈ requiredNext, key ∈ requiredNext ++ optionalNext :=
    fun key member => List.mem_append_left _ member
  rcases all_found_or_missing (handed remaining) requiredNext with
    foundNext | ⟨before, key, after, split, present, absent⟩
  · obtain ⟨-, leftNext, countsNext, refusesNext⟩ := extract_of_found othersNext
      validNext loadsNext orderlyNext foundNext
    rw [handedOn] at foundNext leftNext countsNext refusesNext
    obtain ⟨-, leftWhole, countsWhole, refusesWhole⟩ := extract_of_found othersNext
      validWhole loads orderlyWhole (found_together apart found required_next foundNext)
    have surplus : Surplus (remainder (handed args) (required ++ optional))
          (requiredNext ++ optionalNext) ↔
        Surplus (handed args) ((required ++ requiredNext) ++ (optional ++ optionalNext)) := by
      rw [surplus_iff (given_remainder given _), surplus_iff given, unknownKeys_remainder given together]
    rw [surplus] at countsNext refusesNext
    rw [unknownKeys_remainder given together] at refusesNext
    have mapping : second.mapping = whole.mapping :=
      leftNext.trans ((remainder_remainder (handed args) apart together).trans leftWhole.symm)
    by_cases complete : othersNext.isTruthy = true ∨
        ¬ Surplus (handed args) ((required ++ requiredNext) ++ (optional ++ optionalNext))
    · have secondEnded : second.outcome = .ok _ := countsNext complete
      have wholeEnded : whole.outcome = .ok _ := countsWhole complete
      rw [secondEnded, wholeEnded]
      refine ⟨nofun, fun more counted => ?_, fun _ => mapping⟩
      cases counted
      rw [countP_remainder (handed args) apart together]
    · have secondFailed : second.outcome = .error _ := refusesNext complete
      have wholeFailed : whole.outcome = .error _ := refusesWhole complete
      rw [secondFailed, wholeFailed]
      exact ⟨fun _ raised => raised, nofun, fun _ => mapping⟩
  · obtain ⟨keyword, rfl⟩ := namesArgument_iff.mp (validNext.named key (by simp [split]))
    have secondFailed : second.outcome = .error (.missing keyword) :=
      extract_of_missing othersNext validNext loadsNext orderlyNext after split present absent
    -- What the first stage looked for was all found, so the whole misses the same key.
    rw [handedOn] at present absent
    rw [finds_remainder _ apart (by simp [split])] at absent
    have wholeFailed : whole.outcome = .error (.missing keyword) :=
      extract_of_missing othersNext validWhole loads orderlyWhole after (by simp [split])
        (found_together apart found (fun key member => by simp [split, member]) present) absent
    rw [secondFailed, wholeFailed]
    exact ⟨fun _ raised => raised, nofun, fun unmissed => absurd rfl (unmissed keyword)⟩

end

/-- Two extractions in turn, the first by a schema that takes other keys, come to
what one extraction by both schemas together comes to, if no key is declared by
both and no entry holds the marker. Whichever stage fails, the whole fails the
same way, and otherwise its count is the sum of theirs. Unless a required key is
missing, the second stage also leaves the arguments as the whole does. -/
theorem staged_exact (around : Surroundings) (store : Store) (loaded : Loaded) (lines : List Line)
    (args : Option ArgumentMap) (required optional requiredNext optionalNext : List Value)
    (others othersNext : Value) (buffer bufferNext bufferWhole : Option Buffer)
    (request requestNext requestWhole : Request)
    (given : Given (handed args))
    (valid : (Schema.ofLists required optional others).validate = .ok ())
    (validNext : (Schema.ofLists requiredNext optionalNext othersNext).validate = .ok ())
    (takesOthers : others.isTruthy = true)
    (apart : ((required ++ optional).map Value.key).Disjoint
      ((requiredNext ++ optionalNext).map Value.key))
    (loads : Settings.ensure around store = .ok (loaded, lines))
    (orderly : Orderly loaded buffer request (required.length + optional.length))
    (orderlyNext : Orderly loaded bufferNext requestNext
      (requiredNext.length + optionalNext.length))
    (orderlyWhole : Orderly loaded bufferWhole requestWhole
      ((required ++ requiredNext).length + (optional ++ optionalNext).length)) :
    let first := extract around store args (.ofLists required optional others) buffer request
    let second := extract around first.store (args.map fun _ => first.mapping)
      (.ofLists requiredNext optionalNext othersNext) bufferNext requestNext
    let whole := extract around store args
      (.ofLists (required ++ requiredNext) (optional ++ optionalNext) othersNext) bufferWhole
      requestWhole
    (∀ fault, first.outcome = .error fault → whole.outcome = .error fault) ∧
    ∀ count, first.outcome = .ok count →
      (∀ fault, second.outcome = .error fault → whole.outcome = .error fault) ∧
      (∀ more, second.outcome = .ok more → whole.outcome = .ok (count + more)) ∧
      ((∀ keyword, second.outcome ≠ .error (.missing keyword)) →
        second.mapping = whole.mapping) := by
  intro first second whole
  have distinct := (Schema.validate_ofLists_iff _ _ _).mp valid
  have distinctNext := (Schema.validate_ofLists_iff _ _ _).mp validNext
  rcases all_found_or_missing (handed args) required with
    found | ⟨before, key, after, split, present, absent⟩
  · obtain ⟨kept, left, counts, -⟩ := extract_of_found others distinct loads orderly found
    have counted : first.outcome = .ok _ := counts (Or.inl takesOthers)
    have handedOn : handed (args.map fun _ => first.mapping) =
        remainder (handed args) (required ++ optional) := by
      cases args with
      | none => exact (remainder_empty _).symm
      | some held => exact left
    have loadsNext : Settings.ensure around first.store = .ok (loaded, []) := by
      rw [show first.store = .loaded loaded from kept]
      rfl
    rw [counted]
    refine ⟨nofun, fun count ended => ?_⟩
    cases ended
    exact second_stage given found handedOn apart distinct distinctNext loads loadsNext orderlyNext
      orderlyWhole
  · obtain ⟨keyword, rfl⟩ := namesArgument_iff.mp (distinct.named key (by simp [split]))
    have distinctWhole := (distinct.append distinctNext apart).perm
      (declared_together required optional requiredNext optionalNext).symm
    have firstFailed : first.outcome = .error (.missing keyword) :=
      extract_of_missing others distinct loads orderly after split present absent
    have wholeFailed : whole.outcome = .error (.missing keyword) :=
      extract_of_missing othersNext distinctWhole loads orderlyWhole (after ++ requiredNext)
        (by simp [split]) present absent
    rw [firstFailed, wholeFailed]
    exact ⟨fun _ raised => raised, nofun⟩

/-- A name is required and an age is optional in a first stage, a city in a second
one that takes nothing else. All three are found in turn, and an extra keyword
is left over in the second stage, with all others gone. -/
theorem staged_exact_each_way :
    let first (pairs : List (Value × Value)) := extract ⟨[], .empty⟩ (.loaded untouched)
      (some (.ofList pairs)) (.ofLists [.text "name"] [.text "age"] (.bool true))
      (some (.unassigned 2)) .silent
    let second (pairs : List (Value × Value)) := extract ⟨[], .empty⟩ (first pairs).store
      (some (first pairs).mapping) (.ofLists [.text "city"] [] (.bool false))
      (some (.unassigned 1)) .silent
    let whole (pairs : List (Value × Value)) := extract ⟨[], .empty⟩ (.loaded untouched)
      (some (.ofList pairs)) (.ofLists [.text "name", .text "city"] [.text "age"] (.bool false))
      (some (.unassigned 3)) .silent
    let all : List (Value × Value) :=
      [(.text "name", .null), (.text "age", .bool true), (.text "city", .null)]
    (whole all).outcome = .ok (2 + 1) ∧
      (whole (all ++ [(.text "x", .null)])).outcome = .error (.unknown (.keywords [.text "x"])) ∧
      (second (all ++ [(.text "x", .null)])).mapping = (whole (all ++ [(.text "x", .null)])).mapping := by
  intro first second whole all
  have orderly : ∀ declared : Nat, Orderly untouched (some (.unassigned declared)) .silent declared :=
    fun declared => ⟨rfl, fun _ => ⟨fun _ => rfl, fun _ held => by cases held; rfl⟩⟩
  have exact := fun pairs (given : Given (.ofList pairs)) => staged_exact ⟨[], .empty⟩ (.loaded untouched)
    untouched [] (some (.ofList pairs)) [.text "name"] [.text "age"] [.text "city"] [] (.bool true)
    (.bool false) (some (.unassigned 2)) (some (.unassigned 1)) (some (.unassigned 3)) .silent .silent
    .silent given rfl rfl rfl (by simp [Value.key]) rfl (orderly 2) (orderly 1) (orderly 3)
  constructor
  · have entries : (ArgumentMap.ofList all).entries =
        [⟨0, .text "name", .null⟩, ⟨1, .text "age", .bool true⟩, ⟨2, .text "city", .null⟩] := rfl
    have given : Given (.ofList all) := by simp [Given, entries]
    exact ((exact all given).2 2 rfl).2.1 1 rfl
  · have entries : (ArgumentMap.ofList (all ++ [(.text "x", .null)])).entries =
        [⟨0, .text "name", .null⟩, ⟨1, .text "age", .bool true⟩, ⟨2, .text "city", .null⟩,
          ⟨3, .text "x", .null⟩] := rfl
    have given : Given (.ofList (all ++ [(.text "x", .null)])) := by simp [Given, entries]
    obtain ⟨fails, -, mapping⟩ := (exact _ given).2 2 rfl
    have refused : (second (all ++ [(.text "x", .null)])).outcome =
        .error (.unknown (.keywords [.text "x"])) := rfl
    refine ⟨fails _ refused, mapping fun keyword missing => ?_⟩
    cases refused.symm.trans missing

end Extraction
end NamedArguments
