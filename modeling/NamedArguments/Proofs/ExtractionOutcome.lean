import NamedArguments.Proofs.ExtractionExits

/-! What an extraction from arguments answers, said of the arguments and the
schema alone: the modes and the buffer have no part in it as long as the buffer
is in order. A missing required key comes before anything else, then entries
that are left over, and otherwise the answer is the number of keys found. -/
namespace NamedArguments.Extraction
open Settings (Surroundings Store Loaded)

/-- Some entry stands in the way of a success: there is a mapping, the schema
takes no other keys, and an entry is not that of a declared key that is found. -/
def Overfull (args : Option ArgumentMap) (declared : List Value) (others : Value) : Prop :=
  args.isSome = true ∧ others.isTruthy = false ∧ Surplus (handed args) declared

/-- A valid schema and a buffer in order make the outcome depend on the
arguments alone. The first required key that is not found is missing, and then
nothing is said of other keys. Where all are found, an overfull mapping raises
one fault for its undeclared keys, or for the first of them that names nothing.
In all other cases the found declared keys are counted. -/
theorem outcome_exact (around : Surroundings) (store : Store) (loaded : Loaded) (lines : List Line)
    (args : Option ArgumentMap) (required optional : List Value) (others : Value)
    (buffer : Option Buffer) (request : Request)
    (valid : (Schema.ofLists required optional others).validate = .ok ())
    (loads : Settings.ensure around store = .ok (loaded, lines))
    (fits : checksBuffers loaded = true →
      Fits (request.modes buffer) buffer (required.length + optional.length)) :
    let result := extract around store args (.ofLists required optional others) buffer request
    let declared := required ++ optional
    (∀ key, required.find? (fun key => !(handed args).finds key) = some key →
      ∃ keyword : Keyword, keyword.value = key ∧ result.outcome = .error (.missing keyword) ∧
        result.lines = lines ++ reportLines around loaded
          (some ("missing required keyword '" ++ keyword.name ++ "'"))) ∧
    ((∀ key ∈ required, (handed args).finds key = true) →
      (Overfull args declared others →
        (∀ keywords : List Keyword,
          unknownKeys (handed args) declared = keywords.map Keyword.value →
          result.outcome = .error (.unknown (.keywords keywords))) ∧
        (∀ (keywords : List Keyword) (key : Value) (rest : List Value) (typeName : String),
          unknownKeys (handed args) declared = keywords.map Keyword.value ++ key :: rest →
          key.namesArgument = false → key.typeName? = some typeName →
          result.outcome = .error (.wrongType key typeName))) ∧
      (¬ Overfull args declared others →
        result.outcome = .ok (declared.countP (handed args).finds))) := by
  obtain ⟨ending, exit, ran⟩ := extract_exit around store loaded lines args required optional others
    buffer request valid loads
  simp only [ran]
  cases exit with
  | unfit fault checks faulty =>
    exact absurd (fits checks) (not_fits_of_fault faulty)
  | missing _ before after keyword declared found absent =>
    subst declared
    refine ⟨fun key first => ?_, fun all => ?_⟩
    · rw [find?_missing found absent] at first
      cases first
      exact ⟨keyword, rfl, rfl, rfl⟩
    · have present := all keyword.value (by simp)
      rw [absent] at present
      cases present
  | leftOver _ present found closed surplus =>
    refine ⟨fun key first => ?_,
      fun _ => ⟨fun _ => ⟨fun keywords named => ?_, ?_⟩, fun complete => ?_⟩⟩
    · rw [find?_none found] at first
      cases first
    · rw [named, Fault.ofUnknown, Fault.rejected_keywords]
      rfl
    · intro keywords key rest typeName split nameless printable
      rw [split, Fault.ofUnknown, Fault.rejected_nameless _ _ _ _ nameless,
        Fault.ofNonKeyword_of_typeName printable]
      rfl
    · exact absurd ⟨present, closed, surplus⟩ complete
  | counted _ found complete =>
    refine ⟨fun key first => ?_, fun _ => ⟨fun full => ?_, fun _ => rfl⟩⟩
    · rw [find?_none found] at first
      cases first
    · obtain ⟨_, closed, surplus⟩ := full
      rcases complete with allowed | exact
      · rw [closed] at allowed
        cases allowed
      · exact absurd surplus exact

/-- One name is required and an age is optional: no name, an extra keyword, an
extra number as a key, and nothing but the name. -/
theorem outcome_exact_each_way :
    let outcome (pairs : List (Value × Value)) := (extract ⟨[], .empty⟩ (.loaded untouched)
      (some (.ofList pairs)) (.ofLists [.text "name"] [.text "age"] (.bool false)) none .silent).outcome
    (Schema.ofLists [.text "name"] [.text "age"] (.bool false)).validate = .ok () ∧
      outcome [(.text "age", .null)] = .error (.missing (.text "name")) ∧
      outcome [(.text "name", .null), (.text "x", .null)] = .error (.unknown (.keywords [.text "x"])) ∧
      outcome [(.text "name", .null), (.number .nan, .null)] =
        .error (.wrongType (.number .nan) "number") ∧
      outcome [(.text "name", .null)] = .ok 1 := by
  have valid : (Schema.ofLists [.text "name"] [.text "age"] (.bool false)).validate = .ok () := rfl
  have fits : checksBuffers untouched = true →
      Fits (Request.silent.modes none) none ([Value.text "name"].length + [Value.text "age"].length) :=
    fun _ => ⟨by decide, by simp⟩
  have exact := fun pairs => outcome_exact ⟨[], .empty⟩ (.loaded untouched) untouched []
    (some (.ofList pairs)) [.text "name"] [.text "age"] (.bool false) none .silent valid rfl fits
  refine ⟨valid, ?_, ?_, ?_, ?_⟩
  · obtain ⟨keyword, named, missing, _⟩ := (exact [(.text "age", .null)]).1 (.text "name") rfl
    cases keyword <;> cases named
    exact missing
  · have full : Overfull (some (.ofList [(.text "name", .null), (.text "x", .null)]))
        ([.text "name"] ++ [.text "age"]) (.bool false) :=
      ⟨rfl, rfl, ⟨1, .text "x", .null⟩, .tail _ (.head _), fun both => absurd both.1 (by decide)⟩
    exact (((exact _).2 (by decide)).1 full).1 [.text "x"] rfl
  · have full : Overfull (some (.ofList [(.text "name", .null), (.number .nan, .null)]))
        ([.text "name"] ++ [.text "age"]) (.bool false) :=
      ⟨rfl, rfl, ⟨1, .number .nan, .null⟩, .tail _ (.head _), fun both => absurd both.1 (by decide)⟩
    exact (((exact _).2 (by decide)).1 full).2 [] (.number .nan) [] "number" rfl rfl rfl
  · refine ((exact _).2 (by decide)).2 ?_
    rintro ⟨_, _, entry, member, odd⟩
    have only : entry = ⟨0, .text "name", .null⟩ := List.mem_singleton.mp member
    subst only
    exact odd ⟨by decide, by simp⟩

end NamedArguments.Extraction
