import NamedArguments.Schema.Builder

/-!
Chains of steps on a builder. Each step is taken on what the one before it gave,
and the first one that is refused ends the chain.
-/
namespace NamedArguments.Builder

/-- What a builder is asked for. -/
inductive Step where
  | required (keys : List Value)
  | optional (keys : List Value)
  /-- A word on other keys. -/
  | others (allowed : Value)

namespace Step

/-- Which of the three a step is. -/
inductive Request where
  | required
  | optional
  | others
deriving DecidableEq, Repr

def request : Step → Request
  | .required _ => .required
  | .optional _ => .optional
  | .others _ => .others

/-- The keys that a step declares. -/
def keys : Step → List Value
  | .required keys | .optional keys => keys
  | .others _ => []

def requiredKeys : Step → List Value
  | .required keys => keys
  | _ => []

def optionalKeys : Step → List Value
  | .optional keys => keys
  | _ => []

/-- What a step says of other keys. Undefined allows them and null does not. -/
def words : Step → List Value
  | .others .undefined => [.bool true]
  | .others .null => [.bool false]
  | .others allowed => [allowed]
  | _ => []

end Step

/-- What steps say of other keys: the last word counts, and without any they are
not allowed. -/
def lastWord (steps : List Step) : Value := ((steps.flatMap Step.words).getLast?).getD (.bool false)

/-- Takes a step. -/
def perform (b : Builder) : Step → Except Fault Builder
  | .required keys => b.addRequired keys
  | .optional keys => b.addOptional keys
  | .others allowed => .ok (b.setOthers allowed)

/-- Takes steps one after another. -/
def after (b : Builder) : List Step → Except Fault Builder
  | [] => .ok b
  | step :: rest =>
    match b.perform step with
    | .error fault => .error fault
    | .ok next => next.after rest

/-- Takes steps from nothing and defines the schema that they come to. -/
def build (steps : List Step) : Except Fault Schema :=
  match empty.after steps with
  | .error fault => .error fault
  | .ok b => b.finish

end NamedArguments.Builder
