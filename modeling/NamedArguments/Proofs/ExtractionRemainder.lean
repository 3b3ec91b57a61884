import NamedArguments.Proofs.ExtractionExits

/-! What an extraction leaves of the arguments. Only keys that are declared and
found are ever removed, and only when keys are consumed; how many of them are
gone depends on where the extraction ends. All other entries stay as they are
and in their order. -/
namespace NamedArguments.Extraction
open Settings (Surroundings Store Loaded)

theorem entries_taken {modes : Modes} (consuming : modes.consume = true) (args : ArgumentMap)
    (keys : List Value) :
    (taken modes args keys).entries =
      args.entries.filter fun entry => !entry.key.inKeys (keys.filter args.finds) := by
  rw [taken, if_pos consuming, ArgumentMap.entries_without]

private theorem taken_before_missing {modes : Modes} (consuming : modes.consume = true)
    {args : ArgumentMap} {before : List Value} {key : Value}
    (found : ∀ other ∈ before, args.finds other = true) (missing : args.finds key = false) :
    (taken modes args (before ++ [key])).entries =
      args.entries.filter fun entry => !entry.key.inKeys before := by
  have removed : (before ++ [key]).filter args.finds = before := by
    rw [List.filter_append, List.filter_eq_self.mpr found]
    simp [missing]
  rw [entries_taken consuming, removed]

/-- Visiting keys removes no entry of another key, and none that holds the
marker. -/
theorem mem_taken (modes : Modes) {args : ArgumentMap} {keys : List Value} {entry : MapEntry}
    (member : entry ∈ args.entries)
    (kept : entry.key.inKeys keys = false ∨ entry.value = .absent) :
    entry ∈ (taken modes args keys).entries := by
  cases consuming : modes.consume with
  | false => simpa [taken, consuming] using member
  | true =>
    rw [entries_taken consuming]
    refine List.mem_filter.mpr ⟨member, ?_⟩
    rw [ArgumentMap.inKeys_found keys member]
    rcases kept with outside | absent
    · simp [outside]
    · simp [absent, Value.isAbsent]

private theorem taken_unconsumed {modes : Modes} {args : ArgumentMap} {keys : List Value}
    (unconsumed : modes.consume = false) : taken modes args keys = args := by
  simp [taken, unconsumed]

private theorem inKeys_false_of_subset {key : Value} {keys others : List Value}
    (within : ∀ other ∈ keys, other ∈ others) (outside : key.inKeys others = false) :
    key.inKeys keys = false := by
  refine List.any_eq_false.mpr fun other member => ?_
  exact List.any_eq_false.mp outside other (within other member)

/-- Nothing is removed unless keys are consumed and the buffer is in order. Then
the keys before the missing one are gone where a required key is missing, and
otherwise all declared keys that are found. -/
theorem entries_left (around : Surroundings) (store : Store) (loaded : Loaded) (lines : List Line)
    (args : ArgumentMap) (required optional : List Value) (others : Value)
    (buffer : Option Buffer) (request : Request)
    (valid : (Schema.ofLists required optional others).validate = .ok ())
    (loads : Settings.ensure around store = .ok (loaded, lines)) :
    let result := extract around store (some args) (.ofLists required optional others) buffer request
    let modes := request.modes buffer
    let fits := Fits modes buffer (required.length + optional.length)
    let outside (keys : List Value) := args.entries.filter fun entry => !entry.key.inKeys keys
    (modes.consume = false ∨ (checksBuffers loaded = true ∧ ¬ fits) →
      result.mapping.entries = args.entries) ∧
    (modes.consume = true → (checksBuffers loaded = true → fits) →
      match result.outcome with
      | .error (.missing keyword) =>
        ∃ index, required[index]? = some keyword.value ∧
          result.mapping.entries = outside (required.take index)
      | _ => result.mapping.entries = outside ((required ++ optional).filter args.finds)) ∧
    ∀ entry ∈ args.entries,
      entry.key.inKeys (required ++ optional) = false ∨ entry.value = .absent →
        entry ∈ result.mapping.entries := by
  obtain ⟨ending, exit, ran⟩ := extract_exit around store loaded lines (some args) required optional
    others buffer request valid loads
  simp only [ran]
  cases exit with
  | unfit fault checks faulty =>
    exact ⟨fun _ => rfl, fun _ fits => absurd (fits checks) (not_fits_of_fault faulty),
      fun entry member _ => member⟩
  | missing fits before after keyword declared found absent =>
    subst declared
    refine ⟨fun unmoved => ?_, fun consuming _ => ?_,
      fun entry member kept => mem_taken _ member (kept.imp_left ?_)⟩
    · rw [taken_unconsumed (idle_of_orderly fits unmoved)]
      rfl
    · refine ⟨before.length, by simp, ?_⟩
      rw [List.take_left]
      exact taken_before_missing consuming found absent
    · exact inKeys_false_of_subset fun other inside => by
        simp only [List.mem_append, List.mem_cons] at inside ⊢
        tauto
  | leftOver fits present found closed surplus =>
    refine ⟨fun unmoved => ?_, fun consuming _ => ?_,
      fun entry member kept => mem_taken _ member kept⟩
    · rw [taken_unconsumed (idle_of_orderly fits unmoved)]
      rfl
    · have left := entries_taken consuming args (required ++ optional)
      rcases Fault.raised_ofUnknown (unknownKeys (handed (some args)) (required ++ optional)) with
        ⟨listing, same⟩ | ⟨key, typeName, same⟩ | same <;> rw [same] <;> exact left
  | counted fits found complete =>
    refine ⟨fun unmoved => ?_, fun consuming _ => ?_,
      fun entry member kept => mem_taken _ member kept⟩
    · rw [taken_unconsumed (idle_of_orderly fits unmoved)]
      rfl
    · exact entries_taken consuming args (required ++ optional)

/-- A name is given, and something else with it: where a key is missing behind
the name, where nothing is missing, and where the schema has no name. -/
theorem entries_left_each_way :
    let args : ArgumentMap := .ofList [(.text "x", .null), (.text "name", .null)]
    let left (required optional : List Value) := (extract ⟨[], .empty⟩ (.loaded untouched) (some args)
      (.ofLists required optional (.bool false)) none ⟨.bool false, .bool true⟩).mapping.entries
    (Schema.ofLists [.text "name", .text "age"] [] (.bool false)).validate = .ok () ∧
      left [.text "name", .text "age"] [] = [⟨0, .text "x", .null⟩] ∧
      (Schema.ofLists [.text "name"] [.text "age"] (.bool false)).validate = .ok () ∧
      left [.text "name"] [.text "age"] = [⟨0, .text "x", .null⟩] ∧
      (⟨1, .text "name", .null⟩ : MapEntry) ∈ left [] [.text "age"] := by
  intro args left
  have remains := fun required optional => entries_left ⟨[], .empty⟩ (.loaded untouched) untouched [] args
    required optional (.bool false) none ⟨.bool false, .bool true⟩
  refine ⟨rfl, ?_, rfl, ?_, ?_⟩
  · obtain ⟨index, missing, same⟩ := (remains [.text "name", .text "age"] [] rfl rfl).2.1 rfl
      fun _ => ⟨by decide, by simp⟩
    match index, missing with
    | 0, other => simp [Keyword.value] at other
    | 1, _ => exact same
    | _ + 2, other => cases other
  · exact (remains [.text "name"] [.text "age"] rfl rfl).2.1 rfl fun _ => ⟨by decide, by simp⟩
  · exact (remains [] [.text "age"] rfl rfl).2.2 _ (.tail _ (.head _)) (Or.inl rfl)

end NamedArguments.Extraction
