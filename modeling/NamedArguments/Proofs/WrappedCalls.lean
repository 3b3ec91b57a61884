import NamedArguments.Proofs.ExtractionVerdicts
import NamedArguments.Proofs.ProgramRuns

/-! Calls of wrapped functions in the course of a program. A function is fixed
to the number of keywords that its schema declared when it was made, while each
call reads the schema as it is by then. What a call comes to can be told from
these two moments: it is an extraction into a fresh buffer of the earlier
number of slots, followed by the implementation if the extraction goes through. -/
namespace NamedArguments

open Settings (Surroundings Store Loaded)

namespace NamedFunction

section

variable {σ ω α : Type} (f : NamedFunction) (implementation : Implementation ω α) (shelf : Shelf)
  (around : Surroundings) (store : Store) (m : Option (Mapping σ)) (state : σ) (world : ω)

/-- Where no buffer can be made, nothing is extracted and nothing run. -/
theorem call_of_refused {fault : Fault} (refused : freshBuffer f.slots = .error fault) :
    f.call implementation shelf around store m state world =
      { outcome := .error fault, mapping := state, world, store, lines := [] } := by
  simp only [call, refused]

/-- A call leaves behind what its extraction leaves behind. Whether the
implementation is run, on the extracted buffer, rests with the extraction alone. -/
theorem call_of_fresh {buffer : Buffer} (fresh : freshBuffer f.slots = .ok buffer) :
    let extraction := Extraction.underSettings around store m (shelf.schema f.schema) (some buffer)
      .silent state
    let result := f.call implementation shelf around store m state world
    result.mapping = extraction.mapping ∧ result.store = extraction.store ∧
      result.lines = extraction.lines ∧
      (∀ fault, extraction.outcome = .error fault →
        result.outcome = .error fault ∧ result.world = world) ∧
      ∀ found slots, extraction.outcome = .ok found → extraction.buffer = some slots →
        (result.outcome, result.world) = implementation slots found world := by
  simp only [call, fresh, true_and]
  generalize Extraction.underSettings around store m (shelf.schema f.schema) (some buffer) .silent
    state = extraction
  obtain ⟨outcome, mapping, written, kept, lines⟩ := extraction
  cases outcome with
  | error fault =>
    refine ⟨fun raised same => ?_, nofun⟩
    cases same
    exact ⟨rfl, rfl⟩
  | ok count =>
    refine ⟨nofun, fun found slots same held => ?_⟩
    cases same
    cases held
    rfl

end

end NamedFunction

namespace Extraction

/-- An extraction into a fresh buffer that goes through hands over a buffer with a
slot for each declared keyword, and every slot is assigned. -/
theorem fresh_assigned {σ : Type} {around : Surroundings} {store : Store} {loaded : Loaded}
    {lines : List Line} {m : Option (Mapping σ)} {required optional : List Value} {others : Value}
    {slots found : Nat} {state : σ} (loads : Settings.ensure around store = .ok (loaded, lines))
    (few : slots ≤ required.length + optional.length)
    (ended : (underSettings around store m (.ofLists required optional others)
      (some (.unassigned slots)) .silent state).outcome = .ok found) :
    ∃ after, (underSettings around store m (.ofLists required optional others)
        (some (.unassigned slots)) .silent state).buffer = some after ∧
      after.length = required.length + optional.length ∧
      ∀ index < required.length + optional.length, (after.slot index).isSome = true := by
  simp only [underSettings, Schema.total_ofLists, loads] at ended ⊢
  obtain ⟨after, written, length, assigned⟩ := run_assigned rfl ended
  refine ⟨after, written, ?_, assigned⟩
  rw [length]
  exact Nat.max_eq_right few

/-- The buffer of a function is at fault exactly where it is held against a schema
that declares another number of keywords. -/
theorem fresh_schemaFault_iff {σ : Type} {around : Surroundings} {store : Store} {loaded : Loaded}
    {lines : List Line} (m : Option (Mapping σ)) (required optional : List Value) (others : Value)
    (slots : Nat) (state : σ) (loads : Settings.ensure around store = .ok (loaded, lines)) :
    (∃ fault, (underSettings around store m (.ofLists required optional others)
        (some (.unassigned slots)) .silent state).outcome = .error (.schema fault)) ↔
      checksBuffers loaded = true ∧ required.length + optional.length ≠ slots := by
  simp only [underSettings, Schema.total_ofLists, loads]
  rw [run_schemaFault_iff]
  refine and_congr_right fun _ => ?_
  constructor
  · intro unfit same
    exact unfit ⟨fun _ => rfl, fun given held => by cases held; exact same.symm⟩
  · intro apart fits
    exact apart (fits.2 _ rfl).symm

end Extraction

namespace Program

/-- A function whose schema is one of lists got its slots when the same object
declared no more keywords, and just as many if the object is frozen. -/
theorem slots_of_made {around : Surroundings} {earlier later : List Action} {f : NamedFunction}
    {required optional : List Value} {others : Value}
    (counted : ((run around earlier).shelf.schema f.schema).total = .ok f.slots)
    (declares : ((run around earlier).after later).shelf.schema f.schema =
      .ofLists required optional others) :
    ∃ wrapped, f.slots = .count wrapped ∧ wrapped ≤ required.length + optional.length ∧
      ∀ id held, f.schema = some id → ((run around earlier).after later).shelf.held[id]? = some held →
        held.frozen = true → wrapped = required.length + optional.length := by
  obtain ⟨id, held, named, found⟩ := Shelf.held_of_total counted
  obtain ⟨now, foundNow, grown⟩ := grows_after (run around earlier) later id held found
  rw [named, Shelf.schema_of_held found] at counted
  rw [named, Shelf.schema_of_held foundNow] at declares
  obtain ⟨requiredBefore, optionalBefore, before, requiredGrown, optionalGrown⟩ :=
    (declares ▸ grown.schema).ofLists
  rw [before, Schema.total_ofLists, Except.ok.injEq] at counted
  have fewerRequired := requiredGrown.length_le
  have fewerOptional := optionalGrown.length_le
  refine ⟨requiredBefore.length + optionalBefore.length, counted.symm, by omega, ?_⟩
  intro other stored same stands frozen
  rw [named] at same
  cases same
  rw [foundNow] at stands
  cases stands
  have unchanged := grown.fixed (grown.frozen.trans frozen)
  rw [before, declares] at unchanged
  cases unchanged
  rfl

/-- A call of a function over a schema of lists, at any point of a run. The
function was wrapped at an earlier point, and is fixed to what its schema
declared then; for a defined schema that is what it declares now. No list has
more slots than the greatest length. Up to this length the call raises the fault
of a schema exactly where buffers are checked and the numbers of keywords then
and now differ. In any case it does to the mapping what an extraction into a
fresh buffer of the earlier number of slots does. The implementation is run, once,
if this goes through, and gets as many slots as there are keywords now, all
assigned. Whatever it answers, the mapping is left as the extraction leaves it. -/
theorem wrapped_call_exact {σ ω α : Type} (around : Surroundings) (actions : List Action)
    (index : Nat) (f : NamedFunction) (required optional : List Value) (others : Value)
    (loaded : Loaded) (lines : List Line) (implementation : Implementation ω α)
    (m : Option (Mapping σ)) (state : σ) (world : ω)
    (made : (run around actions).functions[index]? = some f)
    (declares : (run around actions).shelf.schema f.schema = .ofLists required optional others)
    (loads : Settings.ensure (run around actions).session.around (run around actions).session.store =
      .ok (loaded, lines)) :
    let program := run around actions
    let now := required.length + optional.length
    let result := program.call f implementation m state world
    ∃ earlier later wrapped,
      actions = earlier ++ .wrap f.name f.schema :: later ∧
      (run around earlier).functions.length = index ∧
      ((run around earlier).shelf.schema f.schema).total = .ok (.count wrapped) ∧
      f.slots = .count wrapped ∧
      (Defined around actions f.schema → now = wrapped) ∧
      (NamedFunction.greatestLength < wrapped →
        result.outcome = .error .invalidLength ∧ result.mapping = state ∧ result.world = world) ∧
      (wrapped ≤ NamedFunction.greatestLength →
        let extraction := Extraction.underSettings program.session.around program.session.store m
          (.ofLists required optional others) (some (.unassigned wrapped)) .silent state
        ((∃ fault, extraction.outcome = .error (.schema fault)) ↔
          Extraction.checksBuffers loaded = true ∧ now ≠ wrapped) ∧
        ((∀ slots found before fault,
            (implementation slots found before).1 ≠ .error (.schema fault)) →
          ((∃ fault, result.outcome = .error (.schema fault)) ↔
            Extraction.checksBuffers loaded = true ∧ now ≠ wrapped)) ∧
        result.mapping = extraction.mapping ∧ result.store = extraction.store ∧
        result.lines = extraction.lines ∧
        (∀ fault, extraction.outcome = .error fault →
          result.outcome = .error fault ∧ result.world = world) ∧
        ∀ found, extraction.outcome = .ok found →
          ∃ slots, extraction.buffer = some slots ∧ slots.length = now ∧
            (∀ slot < now, (slots.slot slot).isSome = true) ∧
            (result.outcome, result.world) = implementation slots found world) := by
  intro program now result
  obtain ⟨earlier, later, split, place, counted⟩ := made_by_wrap made
  have reached : run around actions =
      (run around earlier).after (.wrap f.name f.schema :: later) := by
    rw [split, run, after_append]
    rfl
  obtain ⟨wrapped, slots, fewer, fixed⟩ := slots_of_made counted (reached ▸ declares)
  refine ⟨earlier, later, wrapped, split, place, slots ▸ counted, slots, ?_, ?_, ?_⟩
  · intro defined
    obtain ⟨id, held, named, found, frozen⟩ := defined.frozen
    exact (fixed id held named (reached ▸ found) frozen).symm
  · intro beyond
    have refused : NamedFunction.freshBuffer f.slots = .error .invalidLength := by
      rw [slots, NamedFunction.freshBuffer, if_neg (Nat.not_le_of_lt beyond)]
    have ended : result = _ := NamedFunction.call_of_refused f implementation program.shelf
      program.session.around program.session.store m state world refused
    rw [ended]
    exact ⟨rfl, rfl, rfl⟩
  · intro within extraction
    have fresh : NamedFunction.freshBuffer f.slots = .ok (.unassigned wrapped) := by
      rw [slots, NamedFunction.freshBuffer, if_pos within]
    obtain ⟨mapping, store, written, failed, ran⟩ := NamedFunction.call_of_fresh f implementation
      program.shelf program.session.around program.session.store m state world fresh
    rw [show program.shelf.schema f.schema = .ofLists required optional others from declares]
      at mapping store written failed ran
    have faulty := Extraction.fresh_schemaFault_iff m required optional others wrapped state loads
    have runs : ∀ found, extraction.outcome = .ok found →
        ∃ slots, extraction.buffer = some slots ∧ slots.length = now ∧
          (∀ slot < now, (slots.slot slot).isSome = true) ∧
          (result.outcome, result.world) = implementation slots found world := by
      intro found ended
      obtain ⟨after, buffer, length, assigned⟩ := Extraction.fresh_assigned loads fewer ended
      exact ⟨after, buffer, length, assigned, ran found after ended buffer⟩
    refine ⟨faulty, fun innocent => ?_, mapping, store, written, failed, runs⟩
    rw [← faulty]
    cases ended : extraction.outcome with
    | error fault =>
      obtain ⟨same, -⟩ := failed fault ended
      rw [show result.outcome = .error fault from same]
      exact exists_congr fun raised => by simp
    | ok found =>
      obtain ⟨after, -, -, -, same⟩ := runs found ended
      have own := innocent after found world
      rw [← same] at own
      constructor
      · rintro ⟨fault, raised⟩
        exact absurd raised (own fault)
      · rintro ⟨fault, raised⟩
        cases raised

/-- The schema of a function, a name alone, gains an age once the function is
made. A call is then refused, until buffers are no longer checked; after that
the implementation gets both values. -/
theorem wrapped_call_exact_grown :
    let growing : List Action :=
      [.assemble (.ofLists [.text "name"] [] (.bool false)), .wrap "greet" (some 0),
        .push (some 0) .optional (.text "age")]
    let unchecking : Action := .settings (.set (Value.plain .merged [("checks", .text "none")]))
    let implementation : Implementation Nat (List Slot) :=
      fun slots _ runs => (.ok slots.toList, runs + 1)
    let result (actions : List Action) := (run ⟨[], .empty⟩ actions).call ⟨"greet", some 0, .count 1⟩
      implementation (some ArgumentMap.mapping)
      (.ofList [(.text "name", .null), (.text "age", .bool true)]) 0
    (∃ fault, (result growing).outcome = .error (.schema fault)) ∧
      (∃ slots : List Slot, (result (growing ++ [unchecking])).outcome = .ok slots ∧
        slots.length = 2) ∧
      (result (growing ++ [unchecking])).world = 1 := by
  intro growing unchecking implementation result
  have exact := fun rest loaded lines => wrapped_call_exact ⟨[], .empty⟩ (growing ++ rest) 0
    ⟨"greet", some 0, .count 1⟩ [.text "name"] [.text "age"] (.bool false) loaded lines
    implementation (some ArgumentMap.mapping)
    (.ofList [(.text "name", .null), (.text "age", .bool true)]) 0
  constructor
  · obtain ⟨-, -, wrapped, -, -, -, slots, -, -, calls⟩ := exact [] Extraction.untouched [] rfl rfl rfl
    cases slots
    exact ((calls (by decide)).2.1 nofun).mpr ⟨rfl, by decide⟩
  · obtain ⟨-, -, wrapped, -, -, -, slots, -, -, calls⟩ := exact [unchecking]
      { file := Settings.empty, programmatic := Value.plain .merged [("checks", .text "none")]
        effective := Settings.layer Settings.defaults
          (Value.plain .merged [("checks", .text "none")])
        origin := none } [] rfl rfl rfl
    cases slots
    obtain ⟨-, -, -, -, -, -, runs⟩ := calls (by decide)
    obtain ⟨given, -, length, -, same⟩ := runs 2 rfl
    have outcome : (result (growing ++ [unchecking])).outcome = .ok given.toList :=
      congrArg Prod.fst same
    have world : (result (growing ++ [unchecking])).world = 1 := congrArg Prod.snd same
    exact ⟨⟨given.toList, outcome, by simp [length]⟩, world⟩

end Program
end NamedArguments
