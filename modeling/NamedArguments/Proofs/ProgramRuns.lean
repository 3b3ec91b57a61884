import Mathlib.Data.List.Induction
import NamedArguments.Program
import NamedArguments.Proofs.SchemaValidity

/-! What becomes of schema objects and functions while a program runs. Objects
keep their places and only grow, those that were defined do not change at all,
and every function was made at one point of the run from an object as it was by
then. -/
namespace NamedArguments

open Settings (Surroundings)

/-- A half of a schema as it may become: keys are added behind the others, and
what is no list stays as it is. -/
def Part.Grows : Part → Part → Prop
  | .keys before, .keys after => before <+: after
  | .other before, .other after => before = after
  | _, _ => False

theorem Part.Grows.refl (part : Part) : part.Grows part := by
  cases part with
  | keys ks => exact List.prefix_refl ks
  | other v => rfl

theorem Part.Grows.trans {before middle after : Part} (first : before.Grows middle)
    (second : middle.Grows after) : before.Grows after := by
  cases before <;> cases middle <;> cases after <;> try contradiction
  · exact List.IsPrefix.trans first second
  · exact Eq.trans first second

/-- A schema as it may become. -/
structure Schema.Grows (before after : Schema) : Prop where
  required : before.required.Grows after.required
  optional : before.optional.Grows after.optional
  others : before.others = after.others

theorem Schema.Grows.refl (schema : Schema) : schema.Grows schema :=
  ⟨.refl _, .refl _, rfl⟩

theorem Schema.Grows.trans {before middle after : Schema} (first : before.Grows middle)
    (second : middle.Grows after) : before.Grows after :=
  ⟨first.required.trans second.required, first.optional.trans second.optional,
    first.others.trans second.others⟩

/-- A schema that has become one of lists has been one of lists, with no more keys. -/
theorem Schema.Grows.ofLists {before : Schema} {required optional : List Value} {others : Value}
    (grown : before.Grows (.ofLists required optional others)) :
    ∃ requiredBefore optionalBefore, before = .ofLists requiredBefore optionalBefore others ∧
      requiredBefore <+: required ∧ optionalBefore <+: optional := by
  obtain ⟨requiredHalf, optionalHalf, taken⟩ := before
  obtain ⟨requiredGrown, optionalGrown, same⟩ := grown
  cases requiredHalf with
  | other v => cases requiredGrown
  | keys requiredBefore =>
    cases optionalHalf with
    | other v => cases optionalGrown
    | keys optionalBefore =>
      cases same
      exact ⟨requiredBefore, optionalBefore, rfl, requiredGrown, optionalGrown⟩

/-- Pushing a key makes a half of lists grow. -/
theorem Schema.grows_withHalf {schema : Schema} {which : Half} {ks : List Value}
    (listed : schema.half which = .keys ks) (key : Value) :
    schema.Grows (schema.withHalf which (.keys (ks ++ [key]))) := by
  have grown : (Part.keys ks).Grows (.keys (ks ++ [key])) := List.prefix_append ks [key]
  cases which with
  | required => exact ⟨by rw [← listed] at grown; exact grown, .refl _, rfl⟩
  | optional => exact ⟨.refl _, by rw [← listed] at grown; exact grown, rfl⟩

/-- A schema object as it may become. -/
structure HeldSchema.Grows (before after : HeldSchema) : Prop where
  schema : before.schema.Grows after.schema
  frozen : before.frozen = after.frozen
  fixed : before.frozen = true → before.schema = after.schema

theorem HeldSchema.Grows.refl (held : HeldSchema) : held.Grows held :=
  ⟨.refl _, rfl, fun _ => rfl⟩

theorem HeldSchema.Grows.trans {before middle after : HeldSchema} (first : before.Grows middle)
    (second : middle.Grows after) : before.Grows after where
  schema := first.schema.trans second.schema
  frozen := first.frozen.trans second.frozen
  fixed := fun frozen =>
    (first.fixed frozen).trans (second.fixed (first.frozen.symm.trans frozen))

namespace Shelf

/-- Every object keeps its place, and is what it may become. -/
def Grows (before after : Shelf) : Prop :=
  ∀ (id : Nat) held, before.held[id]? = some held →
    ∃ now, after.held[id]? = some now ∧ held.Grows now

theorem Grows.refl (shelf : Shelf) : shelf.Grows shelf := fun _ held found =>
  ⟨held, found, .refl held⟩

theorem Grows.trans {before middle after : Shelf} (first : before.Grows middle)
    (second : middle.Grows after) : before.Grows after := by
  intro id held found
  obtain ⟨between, foundBetween, grown⟩ := first id held found
  obtain ⟨now, foundNow, grownAgain⟩ := second id between foundBetween
  exact ⟨now, foundNow, grown.trans grownAgain⟩

theorem grows_add (shelf : Shelf) (held : HeldSchema) : shelf.Grows (shelf.add held).2 := by
  intro id before found
  have inside := (List.getElem?_eq_some_iff.mp found).1
  exact ⟨before, (List.getElem?_append_left inside).trans found, .refl before⟩

theorem schema_of_held {shelf : Shelf} {id : Nat} {held : HeldSchema}
    (found : shelf.held[id]? = some held) : shelf.schema (some id) = held.schema := by
  simp [schema, get?, found]

/-- Where there is no object there is no number of keywords. -/
theorem held_of_total {shelf : Shelf} {ref : SchemaRef} {extent : Extent}
    (counted : (shelf.schema ref).total = .ok extent) :
    ∃ id held, ref = some id ∧ shelf.held[id]? = some held := by
  cases found : shelf.get? ref with
  | none => simp [schema, found, Schema.missing, Schema.total, Part.extent?, Value.length?] at counted
  | some held =>
    obtain ⟨id, same, stored⟩ := Option.bind_eq_some_iff.mp found
    exact ⟨id, held, same, stored⟩

theorem grows_set {shelf : Shelf} {id : Nat} {held now : HeldSchema}
    (found : shelf.held[id]? = some held) (grown : held.Grows now) :
    shelf.Grows ⟨shelf.held.set id now⟩ := by
  intro other before stored
  by_cases same : id = other
  · subst same
    have inside := (List.getElem?_eq_some_iff.mp found).1
    rw [found] at stored
    cases stored
    exact ⟨now, List.getElem?_set_self inside, grown⟩
  · exact ⟨before, (List.getElem?_set_ne same).trans stored, .refl before⟩

/-- A key that is pushed goes behind the others, in an object that is not frozen. -/
theorem grows_push {shelf after : Shelf} {ref : SchemaRef} {half : Half} {key answer : Value}
    (pushed : shelf.push ref half key = .ok (answer, after)) : shelf.Grows after := by
  unfold push at pushed
  split at pushed
  next id schema frozen found =>
    split at pushed
    next ks listed =>
      cases frozen with
      | true => cases pushed
      | false =>
        cases pushed
        exact grows_set found ⟨Schema.grows_withHalf listed key, rfl, nofun⟩
    next v unlisted =>
      split at pushed
      · cases pushed
        exact .refl shelf
      · cases pushed
  next => cases pushed

end Shelf

namespace Program

/-- A program that starts afresh, after actions. -/
def run (around : Surroundings) (actions : List Action) : Program := (fresh around).after actions

/-- What an action can do to schema objects and functions: nothing, add an object
or push a key to one, or make a function that has as many slots as its schema
declares by then. -/
theorem perform_cases (program : Program) (action : Action) :
    ((program.perform action).shelf = program.shelf ∧
      (program.perform action).functions = program.functions) ∨
    (∃ held, (program.perform action).shelf = (program.shelf.add held).2 ∧
      (program.perform action).functions = program.functions) ∨
    (∃ ref half key answer,
      program.shelf.push ref half key = .ok (answer, (program.perform action).shelf) ∧
      (program.perform action).functions = program.functions) ∨
    ∃ f, action = .wrap f.name f.schema ∧ (program.shelf.schema f.schema).total = .ok f.slots ∧
      (program.perform action).shelf = program.shelf ∧
      (program.perform action).functions = program.functions ++ [f] := by
  cases action with
  | define recipe =>
    simp only [perform]
    cases recipe.schema with
    | error fault => exact Or.inl ⟨rfl, rfl⟩
    | ok schema => exact Or.inr (Or.inl ⟨⟨schema, true⟩, rfl, rfl⟩)
  | assemble schema => exact Or.inr (Or.inl ⟨⟨schema, false⟩, rfl, rfl⟩)
  | push ref half key =>
    simp only [perform]
    cases pushed : program.shelf.push ref half key with
    | error fault => exact Or.inl ⟨rfl, rfl⟩
    | ok answered => exact Or.inr (Or.inr (Or.inl ⟨ref, half, key, answered.1, pushed, rfl⟩))
  | register name ref => exact Or.inl ⟨rfl, rfl⟩
  | wrap name ref =>
    simp only [perform, NamedFunction.make]
    cases counted : (program.shelf.schema ref).total with
    | error fault => exact Or.inl ⟨rfl, rfl⟩
    | ok slots =>
      exact Or.inr (Or.inr (Or.inr ⟨{ name, schema := ref, slots }, rfl, counted, rfl, rfl⟩))
  | call function implementation m state world =>
    simp only [perform]
    cases program.functions[function]? with
    | none => exact Or.inl ⟨rfl, rfl⟩
    | some f => exact Or.inl ⟨rfl, rfl⟩
  | settings operation => exact Or.inl ⟨rfl, rfl⟩

theorem grows_perform (program : Program) (action : Action) :
    program.shelf.Grows (program.perform action).shelf := by
  rcases perform_cases program action with
    ⟨same, -⟩ | ⟨held, added, -⟩ | ⟨ref, half, key, answer, pushed, -⟩ | ⟨f, -, -, same, -⟩
  · exact same ▸ .refl program.shelf
  · exact added ▸ Shelf.grows_add program.shelf held
  · exact Shelf.grows_push pushed
  · exact same ▸ .refl program.shelf

/-- Over a run all schema objects keep their places and only grow. -/
theorem grows_after (program : Program) (actions : List Action) :
    program.shelf.Grows (program.after actions).shelf := by
  induction actions generalizing program with
  | nil => exact .refl program.shelf
  | cons action rest ih => exact (grows_perform program action).trans (ih _)

/-- Only wrapping makes a function. -/
theorem functions_perform (program : Program) (action : Action) :
    (program.perform action).functions = program.functions ∨
      ∃ f, action = .wrap f.name f.schema ∧
        (program.shelf.schema f.schema).total = .ok f.slots ∧
        (program.perform action).functions = program.functions ++ [f] := by
  rcases perform_cases program action with
    ⟨-, same⟩ | ⟨held, -, same⟩ | ⟨ref, half, key, answer, -, same⟩ | ⟨f, wraps, counted, -, made⟩
  · exact Or.inl same
  · exact Or.inl same
  · exact Or.inl same
  · exact Or.inr ⟨f, wraps, counted, made⟩

/-- Every function was made at some point of the run, when as many functions had
been made as its position says. -/
theorem made_by_wrap {around : Surroundings} {actions : List Action} {index : Nat}
    {f : NamedFunction} (made : (run around actions).functions[index]? = some f) :
    ∃ earlier later, actions = earlier ++ .wrap f.name f.schema :: later ∧
      (run around earlier).functions.length = index ∧
      ((run around earlier).shelf.schema f.schema).total = .ok f.slots := by
  induction actions using List.reverseRecOn with
  | nil => cases made
  | append_singleton actions action ih =>
    -- A function is one of those made before the last action, or what that action makes.
    rw [run, after_concat] at made
    rcases functions_perform ((fresh around).after actions) action with
      same | ⟨g, wrapped, counted, grown⟩
    · rw [same] at made
      obtain ⟨earlier, later, split, place, total⟩ := ih made
      exact ⟨earlier, later ++ [action], by simp [split], place, total⟩
    · rw [grown, List.getElem?_append] at made
      split at made
      · obtain ⟨earlier, later, split, place, total⟩ := ih made
        exact ⟨earlier, later ++ [action], by simp [split], place, total⟩
      next beyond =>
        obtain ⟨last, same⟩ := List.getElem?_eq_some_iff.mp made
        simp only [List.length_singleton, Nat.lt_one_iff] at last
        simp only [last, List.getElem_cons_zero] at same
        subst same
        exact ⟨actions, [], by rw [wrapped], by unfold run; omega, counted⟩

/-- A schema object was made from a recipe in the course of a run. -/
def Defined (around : Surroundings) (actions : List Action) (ref : SchemaRef) : Prop :=
  ∃ earlier recipe later schema, actions = earlier ++ .define recipe :: later ∧
    recipe.schema = .ok schema ∧ ref = some (run around earlier).shelf.held.length

/-- What was defined is frozen. -/
theorem Defined.frozen {around : Surroundings} {actions : List Action} {ref : SchemaRef}
    (defined : Defined around actions ref) :
    ∃ id held, ref = some id ∧ (run around actions).shelf.held[id]? = some held ∧
      held.frozen = true := by
  obtain ⟨earlier, recipe, later, schema, split, made, rfl⟩ := defined
  have placed : ((run around earlier).perform (.define recipe)).shelf.held[
      (run around earlier).shelf.held.length]? = some ⟨schema, true⟩ := by
    simp [perform, made, Shelf.add]
  obtain ⟨now, found, grown⟩ := grows_after _ later _ _ placed
  refine ⟨_, now, rfl, ?_, grown.frozen.symm⟩
  rw [split, run, after_append, after_cons]
  exact found

end Program
end NamedArguments
