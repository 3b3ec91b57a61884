import NamedArguments.NamedFunction
import NamedArguments.Schema.Builder
import NamedArguments.Schema.Table
import NamedArguments.Session

/-!
Programs that wrap functions. A program defines schemas, or assembles them by
itself and adds keys to these later; it registers schemas, makes functions of
them and calls these, and uses its settings in between. Every schema is an
object that all who hold it see grow.
-/
namespace NamedArguments

open Settings (Surroundings)

/-- What a schema is defined from. -/
inductive Recipe where
  | lists (required optional others : Value)
  | table (entries required optional : Value)
  | builder (built : Builder)

def Recipe.schema : Recipe → Except Fault Schema
  | .lists required optional others => Schema.define required optional others
  | .table entries required optional => Schema.ofTable entries required optional
  | .builder built => built.finish

/-- What a program does. What an implementation does to the program that calls
it are actions that follow the call. -/
inductive Action : Type 1 where
  | define (recipe : Recipe)
  /-- A schema is put together without being checked. -/
  | assemble (schema : Schema)
  | push (ref : SchemaRef) (half : Half) (key : Value)
  | register (name : String) (ref : SchemaRef)
  | wrap (name : String) (ref : SchemaRef)
  /-- A function is called, if there is one of that number. -/
  | call {σ ω α : Type} (function : Nat) (implementation : Implementation ω α)
      (m : Option (Mapping σ)) (state : σ) (world : ω)
  /-- The settings are used, or something changes around the program. -/
  | settings (operation : Operation)

/-- A running program. -/
structure Program where
  shelf : Shelf
  registry : Registry
  /-- The functions made so far; a function goes by its position. -/
  functions : List NamedFunction
  session : Session

namespace Program

/-- A program that has done nothing yet. -/
def fresh (around : Surroundings) : Program :=
  { shelf := .empty, registry := .empty, functions := [], session := .fresh around }

/-- What a call comes to at present. -/
def call {σ ω α : Type} (program : Program) (f : NamedFunction)
    (implementation : Implementation ω α) (m : Option (Mapping σ)) (state : σ) (world : ω) :
    NamedFunction.Result σ ω α :=
  f.call implementation program.shelf program.session.around program.session.store m state world

/-- The program after an action. One that fails may leave traces of its own: a
function that is not made leaves its schema registered. -/
def perform (program : Program) : Action → Program
  | .define recipe =>
    match recipe.schema with
    | .error _ => program
    | .ok schema => { program with shelf := (program.shelf.add ⟨schema, true⟩).2 }
  | .assemble schema => { program with shelf := (program.shelf.add ⟨schema, false⟩).2 }
  | .push ref half key =>
    match program.shelf.push ref half key with
    | .error _ => program
    | .ok (_, shelf) => { program with shelf }
  | .register name ref => { program with registry := program.registry.register name ref }
  | .wrap name ref =>
    match NamedFunction.make program.registry program.shelf name ref with
    | (.error _, registry) => { program with registry }
    | (.ok f, registry) => { program with registry, functions := program.functions ++ [f] }
  | .call function implementation m state world =>
    match program.functions[function]? with
    | none => program
    | some f =>
      let result := program.call f implementation m state world
      { program with session := { program.session with store := result.store } }
  | .settings operation =>
    { program with session := (program.session.perform operation).session }

/-- The program after actions. -/
def after (program : Program) (actions : List Action) : Program := actions.foldl perform program

theorem after_append (program : Program) (actions more : List Action) :
    program.after (actions ++ more) = (program.after actions).after more := List.foldl_append

theorem after_cons (program : Program) (action : Action) (rest : List Action) :
    program.after (action :: rest) = (program.perform action).after rest := rfl

theorem after_concat (program : Program) (actions : List Action) (action : Action) :
    program.after (actions ++ [action]) = (program.after actions).perform action := by
  rw [after_append]
  rfl

end Program
end NamedArguments
