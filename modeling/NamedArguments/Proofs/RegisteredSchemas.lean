import NamedArguments.Proofs.ProgramRuns

/-! What stands in the registry of schemas. Registering a schema and wrapping a
function both put a schema object under a name, and the last of them decides. A
function that cannot be made leaves its schema registered all the same, for the
registry comes first. Nothing but the registry itself is ever read from it, so a
function is the same, and does the same, however names are given to other schemas
later on. -/
namespace NamedArguments

open Settings (Surroundings)

/-- The name that an action puts a schema object under, with the object. -/
def Action.registration? : Action → Option (String × SchemaRef)
  | .register name ref | .wrap name ref => some (name, ref)
  | _ => none

/-- The number of the function that an action calls. -/
def Action.called? : Action → Option Nat
  | .call function .. => some function
  | _ => none

/-- Actions without those that register a schema. -/
def withoutRegistrations (actions : List Action) : List Action :=
  actions.filter fun action => action.registration?.isNone

namespace Registry

theorem get_empty (name : String) : empty.get name = none := rfl

/-- A name stands for what was registered under it last. -/
theorem get_register (registry : Registry) (name asked : String) (ref : SchemaRef) :
    (registry.register name ref).get asked = if asked = name then ref else registry.get asked := by
  by_cases same : asked = name
  · simp [get, register, same]
  · simp [get, register, List.lookup_cons, beq_eq_false_iff_ne.mpr same, same]

end Registry

namespace NamedFunction

theorem named_of_make {registry : Registry} {shelf : Shelf} {name : String} {ref : SchemaRef}
    {f : NamedFunction} (made : (make registry shelf name ref).1 = .ok f) :
    f.name = name ∧ f.schema = ref := by
  unfold make at made
  cases counted : (shelf.schema ref).total with
  | error fault => simp [counted] at made
  | ok slots =>
    simp only [counted, Except.ok.injEq] at made
    exact made ▸ ⟨rfl, rfl⟩

/-- A schema of lists, valid or not, can be wrapped. -/
theorem make_of_lists {shelf : Shelf} {ref : SchemaRef} {required optional : List Value}
    {others : Value} (registry : Registry) (name : String)
    (lists : shelf.schema ref = .ofLists required optional others) :
    ∃ f, (make registry shelf name ref).1 = .ok f := by
  simp only [make, lists, Schema.total_ofLists, Except.ok.injEq, exists_eq']

end NamedFunction

namespace Program

/-- Wrapping a function is registering its schema, and a function behind the others
if one is made. -/
theorem perform_wrap (program : Program) (name : String) (ref : SchemaRef) :
    program.perform (.wrap name ref) =
      match (NamedFunction.make program.registry program.shelf name ref).1 with
      | .error _ => program.perform (.register name ref)
      | .ok f =>
        { program.perform (.register name ref) with functions := program.functions ++ [f] } := by
  simp only [perform, NamedFunction.make]
  cases (program.shelf.schema ref).total <;> rfl

/-- An action leaves the registry alone or puts one schema object into it. -/
theorem registry_perform (program : Program) (action : Action) :
    (program.perform action).registry =
      match action.registration? with
      | none => program.registry
      | some (name, ref) => program.registry.register name ref := by
  cases action with
  | wrap name ref =>
    rw [perform_wrap]
    cases (NamedFunction.make program.registry program.shelf name ref).1 <;> rfl
  | define recipe =>
    simp only [perform, Action.registration?]
    cases recipe.schema <;> rfl
  | push ref half key =>
    simp only [perform, Action.registration?]
    cases program.shelf.push ref half key <;> rfl
  | call function implementation m state world =>
    simp only [perform, Action.registration?]
    cases program.functions[function]? <;> rfl
  | assemble schema => rfl
  | register name ref => rfl
  | settings operation => rfl

/-! ## The last registration decides -/

/-- The last of the actions that put something under a name puts an object there. -/
def LastUnder (name : String) (ref : SchemaRef) (actions : List Action) : Prop :=
  ∃ earlier action later, actions = earlier ++ action :: later ∧
    action.registration? = some (name, ref) ∧
    ∀ other ∈ later, ∀ more, other.registration? ≠ some (name, more)

/-- Actions that register nothing under a name leave it as it is. -/
theorem get_after_of_unnamed {name : String} (program : Program) {actions : List Action}
    (unnamed : ∀ action ∈ actions, ∀ ref, action.registration? ≠ some (name, ref)) :
    (program.after actions).registry.get name = program.registry.get name := by
  induction actions generalizing program with
  | nil => rfl
  | cons action rest ih =>
    rw [after_cons, ih _ fun other member => unnamed other (List.mem_cons_of_mem _ member),
      registry_perform]
    have free := unnamed action List.mem_cons_self
    split
    next => rfl
    next own ref registers =>
      rw [Registry.get_register, if_neg]
      rintro rfl
      exact free ref registers

theorem get_after_of_lastUnder {name : String} {ref : SchemaRef} (program : Program)
    {actions : List Action} (last : LastUnder name ref actions) :
    (program.after actions).registry.get name = ref := by
  obtain ⟨earlier, action, later, rfl, registers, unnamed⟩ := last
  rw [after_append, after_cons, get_after_of_unnamed _ unnamed, registry_perform, registers]
  exact (Registry.get_register _ _ _ _).trans (if_pos rfl)

/-! ## Functions do not depend on registrations -/

variable {one other : Program} {action : Action} {kept : List NamedFunction}

/-- Registering a schema, be it for a function, leaves schemas and settings alone. -/
theorem perform_of_registers {registered : String × SchemaRef} (program : Program)
    (registers : action.registration? = some registered) :
    (program.perform action).shelf = program.shelf ∧
      (program.perform action).session = program.session := by
  cases action with
  | register name ref => exact ⟨rfl, rfl⟩
  | wrap name ref =>
    rw [perform_wrap]
    cases (NamedFunction.make program.registry program.shelf name ref).1 <;> exact ⟨rfl, rfl⟩
  | _ => cases registers

/-- What an action does to schemas and settings rests with these and with the
function that it calls. -/
theorem perform_congr (shelf : one.shelf = other.shelf) (session : one.session = other.session)
    (called : ∀ index, action.called? = some index →
      one.functions[index]? = other.functions[index]?) :
    (one.perform action).shelf = (other.perform action).shelf ∧
      (one.perform action).session = (other.perform action).session := by
  cases registers : action.registration? with
  | some registered =>
    obtain ⟨held, found⟩ := perform_of_registers one registers
    obtain ⟨heldToo, foundToo⟩ := perform_of_registers other registers
    exact ⟨held.trans (shelf.trans heldToo.symm), found.trans (session.trans foundToo.symm)⟩
  | none =>
    cases action with
    | register name ref => cases registers
    | wrap name ref => cases registers
    | define recipe =>
      simp only [perform]
      cases recipe.schema with
      | error fault => exact ⟨shelf, session⟩
      | ok schema => exact ⟨by rw [shelf], session⟩
    | assemble schema => exact ⟨by simp only [perform, shelf], session⟩
    | push ref half key =>
      simp only [perform, shelf]
      cases other.shelf.push ref half key with
      | error fault => exact ⟨shelf, session⟩
      | ok pushed => exact ⟨rfl, session⟩
    | call function implementation m state world =>
      simp only [perform, called function rfl]
      cases other.functions[function]? with
      | none => exact ⟨shelf, session⟩
      | some f => exact ⟨shelf, by simp only [Program.call, shelf, session]⟩
    | settings operation => exact ⟨shelf, by simp only [perform, session]⟩

/-- No action unmakes a function. -/
theorem functions_prefix_perform (program : Program) (action : Action) :
    program.functions <+: (program.perform action).functions := by
  rcases functions_perform program action with same | ⟨f, -, -, made⟩
  · exact same ▸ List.prefix_refl _
  · exact made ▸ List.prefix_append _ _

theorem functions_of_unwrapped (program : Program)
    (unwrapped : ∀ name ref, action ≠ .wrap name ref) :
    (program.perform action).functions = program.functions :=
  (functions_perform program action).resolve_right fun ⟨_, wraps, _⟩ => unwrapped _ _ wraps

/-- Functions once made stay, as they are. -/
theorem functions_prefix_after (program : Program) (actions : List Action) :
    program.functions <+: (program.after actions).functions := by
  induction actions generalizing program with
  | nil => exact List.prefix_refl _
  | cons action rest ih => exact (functions_prefix_perform program action).trans (ih _)

/-- Programs that differ in nothing but what is registered and what functions were
made besides certain ones. -/
structure Agree (kept : List NamedFunction) (one other : Program) : Prop where
  shelf : one.shelf = other.shelf
  session : one.session = other.session
  first : kept <+: one.functions
  second : kept <+: other.functions

namespace Agree

theorem refl (program : Program) : Agree program.functions program program :=
  ⟨rfl, rfl, List.prefix_refl _, List.prefix_refl _⟩

theorem registering (agree : Agree kept one other) {registered : String × SchemaRef}
    (registers : action.registration? = some registered) :
    Agree kept (one.perform action) other := by
  obtain ⟨shelf, session⟩ := perform_of_registers one registers
  exact ⟨shelf.trans agree.shelf, session.trans agree.session,
    agree.first.trans (functions_prefix_perform one action), agree.second⟩

theorem function (agree : Agree kept one other) {index : Nat} (inside : index < kept.length) :
    one.functions[index]? = other.functions[index]? := by
  obtain ⟨more, same⟩ := agree.first
  obtain ⟨others, sameToo⟩ := agree.second
  rw [← same, ← sameToo, List.getElem?_append_left inside, List.getElem?_append_left inside]

theorem perform (agree : Agree kept one other)
    (within : ∀ index, action.called? = some index → index < kept.length) :
    Agree kept (one.perform action) (other.perform action) := by
  obtain ⟨shelf, session⟩ := perform_congr agree.shelf agree.session fun index calls =>
    agree.function (within index calls)
  exact ⟨shelf, session, agree.first.trans (functions_prefix_perform one action),
    agree.second.trans (functions_prefix_perform other action)⟩

/-- A run and the same run without its registrations. -/
theorem after (agree : Agree kept one other) {actions : List Action}
    (within : ∀ action ∈ actions, ∀ index, action.called? = some index → index < kept.length) :
    Agree kept (one.after actions) (other.after (withoutRegistrations actions)) := by
  induction actions generalizing one other with
  | nil => exact agree
  | cons action rest ih =>
    have later := fun more member => within more (List.mem_cons_of_mem action member)
    rw [after_cons, withoutRegistrations, List.filter_cons]
    cases registers : action.registration? with
    | some registered => exact ih (agree.registering registers) later
    | none => exact ih (agree.perform (within action List.mem_cons_self)) later

theorem call (agree : Agree kept one other) {σ ω α : Type} (f : NamedFunction)
    (implementation : Implementation ω α) (m : Option (Mapping σ)) (state : σ) (world : ω) :
    one.call f implementation m state world = other.call f implementation m state world := by
  simp only [Program.call, agree.shelf, agree.session]

end Agree

/-- A program as if nothing were registered. -/
def forgetful (program : Program) : Program := { program with registry := .empty }

theorem forgetful_eq_iff : one.forgetful = other.forgetful ↔
    one.shelf = other.shelf ∧ one.functions = other.functions ∧ one.session = other.session := by
  simp [forgetful]

/-- An action finds nothing in the registry. -/
theorem forgetful_perform (same : one.forgetful = other.forgetful) (action : Action) :
    (one.perform action).forgetful = (other.perform action).forgetful := by
  obtain ⟨shelf, functions, session⟩ := forgetful_eq_iff.mp same
  obtain ⟨shelfAfter, sessionAfter⟩ : (one.perform action).shelf = (other.perform action).shelf ∧
      (one.perform action).session = (other.perform action).session :=
    perform_congr shelf session fun index _ => by rw [functions]
  refine forgetful_eq_iff.mpr ⟨shelfAfter, ?_, sessionAfter⟩
  cases action with
  | wrap name ref =>
    simp only [perform, NamedFunction.make, shelf]
    cases (other.shelf.schema ref).total with
    | error fault => exact functions
    | ok slots => simp only [functions]
  | _ =>
    rw [functions_of_unwrapped one (fun _ _ wraps => by cases wraps), functions,
      functions_of_unwrapped other (fun _ _ wraps => by cases wraps)]

/-- A run finds nothing in the registry. -/
theorem forgetful_after (same : one.forgetful = other.forgetful) (actions : List Action) :
    (one.after actions).forgetful = (other.after actions).forgetful := by
  induction actions generalizing one other with
  | nil => exact same
  | cons action rest ih => exact ih (forgetful_perform same action)

/-- What a program finds registered, after any run. Under a name stands the very
object that was put there last, by registering it or by wrapping a function,
whether or not the function could be made; where nothing was, there is nothing.
Wrapping that fails does just what registering the schema does, and it never fails
where both halves are lists. Functions stay as they were made. A registration
changes nothing in the rest of a run but what is registered. As long as a program
calls only functions that it has, each of these finds the same schema and does the
same as if nothing were registered from now on, be it for further functions. -/
theorem registered_exact (around : Surroundings) (actions : List Action) :
    let program := run around actions
    (∀ name ref, LastUnder name ref actions → program.registry.get name = ref) ∧
    (∀ name, (∀ action ∈ actions, ∀ ref, action.registration? ≠ some (name, ref)) →
      program.registry.get name = none) ∧
    (∀ name ref,
      let made := (NamedFunction.make program.registry program.shelf name ref).1
      let registered := program.perform (.register name ref)
      (∀ fault, made = .error fault → program.perform (.wrap name ref) = registered) ∧
      (∀ f, made = .ok f → f.name = name ∧ f.schema = ref ∧ program.perform (.wrap name ref) =
        { registered with functions := program.functions ++ [f] }) ∧
      (∀ required optional others, program.shelf.schema ref = .ofLists required optional others →
        ∃ f, made = .ok f) ∧
      ∀ more, (registered.after more).forgetful = (program.after more).forgetful) ∧
    (∀ more, program.functions <+: (program.after more).functions) ∧
    ∀ more, (∀ action ∈ more, ∀ index, action.called? = some index →
        index < program.functions.length) →
      let after := program.after more
      let unregistered := program.after (withoutRegistrations more)
      ∀ f ∈ program.functions, after.shelf.schema f.schema = unregistered.shelf.schema f.schema ∧
        ∀ {σ ω α : Type} (implementation : Implementation ω α) (m : Option (Mapping σ)) (state : σ)
          (world : ω), after.call f implementation m state world =
            unregistered.call f implementation m state world := by
  intro program
  refine ⟨fun name ref last => get_after_of_lastUnder _ last,
    fun name unnamed => (get_after_of_unnamed _ unnamed).trans (Registry.get_empty name),
    fun name ref => ?_, functions_prefix_after program, fun more within => ?_⟩
  · have wrapped := perform_wrap program name ref
    refine ⟨fun fault failed => ?_, fun f succeeded => ?_, fun required optional others lists => ?_,
      forgetful_after rfl⟩
    · rw [wrapped, failed]
    · obtain ⟨named, held⟩ := NamedFunction.named_of_make succeeded
      exact ⟨named, held, by rw [wrapped, succeeded]⟩
    · exact NamedFunction.make_of_lists program.registry name lists
  · have agree := (Agree.refl program).after within
    exact fun f _ => ⟨by rw [agree.shelf], agree.call f⟩

/-- A function is wrapped under a name that takes a schema without keys next, for a
function that cannot be made. The first function does as it would have done. -/
theorem registered_exact_again :
    let earlier : List Action :=
      [.assemble (.ofLists [.text "name"] [] (.bool false)),
        .assemble ⟨.other .null, .keys [], .bool false⟩, .wrap "greet" (some 0)]
    let more : List Action := [.wrap "greet" (some 1), .push (some 0) .optional (.text "age")]
    let program := run ⟨[], .empty⟩ earlier
    let greet : NamedFunction := ⟨"greet", some 0, .count 1⟩
    let implementation : Implementation Nat (List Slot) :=
      fun slots _ runs => (.ok slots.toList, runs + 1)
    let arguments := ArgumentMap.ofList [(.text "name", .null)]
    (run ⟨[], .empty⟩ (earlier ++ more)).registry.get "greet" = some 1 ∧
      (run ⟨[], .empty⟩ (earlier ++ more)).registry.get "part" = none ∧
      program.perform (.wrap "greet" (some 1)) = program.perform (.register "greet" (some 1)) ∧
      greet ∈ program.functions ∧
      (program.after more).call greet implementation (some ArgumentMap.mapping) arguments 0 =
        (program.after [.push (some 0) .optional (.text "age")]).call greet implementation
          (some ArgumentMap.mapping) arguments 0 := by
  intro earlier more program greet implementation arguments
  obtain ⟨latest, nothing, -⟩ := registered_exact ⟨[], .empty⟩ (earlier ++ more)
  obtain ⟨-, -, steps, -, calls⟩ := registered_exact ⟨[], .empty⟩ earlier
  have made : greet ∈ program.functions := List.mem_singleton.mpr rfl
  refine ⟨latest "greet" (some 1) ?_, nothing "part" ?_, (steps "greet" (some 1)).1 .unsupported rfl,
    made, (calls more ?_ greet made).2 implementation _ arguments 0⟩
  · exact ⟨earlier, .wrap "greet" (some 1), _, rfl, rfl, by simp [Action.registration?]⟩
  · simp [earlier, more, Action.registration?]
  · simp [more, Action.called?]

/-- The registry is not as it was after a function could not be made: the schema
that was registered successfully has given way to the one without keys. -/
theorem failed_wrap_registers :
    let program := run ⟨[], .empty⟩
      [.define (.lists (.list .merged [.text "path"]) .undefined .undefined),
        .register "open" (some 0), .assemble ⟨.other .null, .keys [], .bool false⟩]
    (NamedFunction.make program.registry program.shelf "open" (some 1)).1 = .error .unsupported ∧
      program.registry.get "open" = some 0 ∧
      (program.perform (.wrap "open" (some 1))).registry.get "open" = some 1 :=
  ⟨rfl, rfl, rfl⟩

end Program
end NamedArguments
