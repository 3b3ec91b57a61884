import NamedArguments.Proofs.ExtractionExits

/-! What an extraction leaves in a buffer. Answers stand in the slots of their
keys, as far as the extraction has come. A success clears all slots from the
count on, so the answers kept are those of the first keys and not those of the
found ones. -/
namespace NamedArguments.Extraction
open Settings (Surroundings Store Loaded)

theorem recorded_filled {modes : Modes} (writing : modes.write = true) (slots : Buffer)
    (values : List Value) :
    ∃ after, recorded modes (some slots) 0 values = some after ∧ slots.Filled after values := by
  refine ⟨slots.writeAll 0 values, ?_, Buffer.filled_writeAll slots values⟩
  rw [recorded, if_pos writing, Option.map_some]

/-- A success keeps the answers of the first keys, as many as are found. Without
a mapping that is none of them, and nothing was recorded. -/
theorem settled_filled {modes : Modes} (writing : modes.write = true) (args : Option ArgumentMap)
    (required optional : List Value) (slots : Buffer) :
    let count := (required ++ optional).countP (handed args).finds
    ∃ after, settled modes (some slots) ((sought args required optional).map (handed args).lookup)
        count (required.length + optional.length) = some after ∧
      slots.Filled after (((required ++ optional).map (handed args).lookup).take count ++
        List.replicate (required.length + optional.length - count) .absent) := by
  intro count
  refine ⟨_, by rw [settled, if_pos writing, Option.map_some], ?_⟩
  have recorded := Buffer.filled_writeAll slots
    ((sought args required optional).map (handed args).lookup)
  cases args with
  | none =>
    have nothing : count = 0 := by simp [count, handed, List.countP_eq_zero]
    have within : ((sought none required optional).map (handed none).lookup).length ≤
        required.length + optional.length := by simp [sought]
    rw [nothing]
    simpa only [List.take_zero] using filled_clear recorded (Nat.zero_le _) within
  | some held =>
    have bounded : count ≤ (required ++ optional).length := List.countP_le_length
    exact filled_clear recorded (by simpa only [List.length_map] using bounded) (by simp)

/-- Nothing is written unless values are asked for and the buffer is in order.
Then the slots up to that of the missing key hold the answers where a required
key is missing, all declared slots hold them where keys are left over, and a
success with a count clears all declared slots but the first ones. Slots behind
these stay as they are. -/
theorem slots_left (around : Surroundings) (store : Store) (loaded : Loaded) (lines : List Line)
    (args : Option ArgumentMap) (required optional : List Value) (others : Value)
    (slots : Buffer) (request : Request)
    (valid : (Schema.ofLists required optional others).validate = .ok ())
    (loads : Settings.ensure around store = .ok (loaded, lines)) :
    let result := extract around store args (.ofLists required optional others) (some slots) request
    let modes := request.modes (some slots)
    let fits := Fits modes (some slots) (required.length + optional.length)
    let answers (keys : List Value) := keys.map (handed args).lookup
    (modes.write = false ∨ (checksBuffers loaded = true ∧ ¬ fits) → result.buffer = some slots) ∧
    (modes.write = true → (checksBuffers loaded = true → fits) →
      ∃ after, result.buffer = some after ∧
        match result.outcome with
        | .ok count =>
          slots.Filled after ((answers (required ++ optional)).take count ++
            List.replicate (required.length + optional.length - count) .absent)
        | .error (.missing keyword) =>
          ∃ index, required[index]? = some keyword.value ∧
            (handed args).lookup keyword.value = .absent ∧
            slots.Filled after (answers (required.take (index + 1)))
        | _ => slots.Filled after (answers (required ++ optional))) := by
  obtain ⟨ending, exit, ran⟩ := extract_exit around store loaded lines args required optional others
    (some slots) request valid loads
  simp only [ran]
  cases exit with
  | unfit fault checks faulty =>
    exact ⟨fun _ => rfl, fun _ fits => absurd (fits checks) (not_fits_of_fault faulty)⟩
  | missing fits before after keyword declared found absent =>
    subst declared
    refine ⟨fun unmoved => ?_, fun writing _ => ?_⟩
    · simp [recorded, idle_of_orderly fits unmoved]
    · obtain ⟨left, same, filled⟩ := recorded_filled writing slots
        ((before ++ [keyword.value]).map (handed args).lookup)
      refine ⟨left, same, before.length, by simp, ArgumentMap.lookup_of_not_finds absent, ?_⟩
      have upTo : (before ++ keyword.value :: after).take (before.length + 1) =
          before ++ [keyword.value] := by
        rw [List.take_length_add_append]
        rfl
      rwa [upTo]
  | leftOver fits present found closed surplus =>
    refine ⟨fun unmoved => ?_, fun writing _ => ?_⟩
    · simp [recorded, idle_of_orderly fits unmoved]
    · obtain ⟨left, same, filled⟩ := recorded_filled writing slots
        ((required ++ optional).map (handed args).lookup)
      refine ⟨left, same, ?_⟩
      rcases Fault.raised_ofUnknown (unknownKeys (handed args) (required ++ optional)) with
        ⟨listing, raised⟩ | ⟨key, typeName, raised⟩ | raised <;> rw [raised] <;> exact filled
  | counted fits found complete =>
    refine ⟨fun unmoved => ?_, fun writing _ => ?_⟩
    · simp [settled, idle_of_orderly fits unmoved]
    · exact settled_filled writing args required optional slots

/-- A name is required, and an age and a city are optional: the city is lost
behind the missing age, and without a name only the first slot is assigned. -/
theorem slots_left_each_way :
    let slots := Buffer.unassigned 3
    let schema := Schema.ofLists [.text "name"] [.text "age", .text "city"] (.bool false)
    let filled (pairs : List (Value × Value)) (values : List Value) :=
      ∃ after, (extract ⟨[], .empty⟩ (.loaded untouched) (some (.ofList pairs)) schema (some slots)
        .silent).buffer = some after ∧ slots.Filled after values
    schema.validate = .ok () ∧
      filled [(.text "name", .null), (.text "city", .bool true)] [.null, .absent, .absent] ∧
      filled [(.text "age", .null)] [.absent] := by
  intro slots schema filled
  have fits : checksBuffers untouched = true → Fits (Request.silent.modes (some slots)) (some slots)
      ([Value.text "name"].length + [Value.text "age", Value.text "city"].length) :=
    fun _ => ⟨fun _ => rfl, fun _ same => by cases same; rfl⟩
  have left := fun pairs => (slots_left ⟨[], .empty⟩ (.loaded untouched) untouched []
    (some (.ofList pairs)) [.text "name"] [.text "age", .text "city"] (.bool false) slots .silent
    rfl rfl).2 rfl fits
  refine ⟨rfl, left [(.text "name", .null), (.text "city", .bool true)], ?_⟩
  obtain ⟨after, same, index, missing, _, held⟩ := left [(.text "age", .null)]
  match index, missing with
  | 0, _ => exact ⟨after, same, held⟩

end NamedArguments.Extraction
