import NamedArguments.Settings.Environment

/-!
The layer of an environment as it is put together from objects. Members refer to
objects, and what is assigned to an object is seen wherever it is referred to.
All objects inherit from one, their ancestor, which a path can reach and which
can be assigned to like any other. A loading makes an object to start with and
others on its way, beside those that there are already, and keeps record of what
it makes, enters and assigns to.
-/
namespace NamedArguments.Settings

/-- An object as it is referred to. -/
inductive Reference where
  /-- The object from which all others inherit. -/
  | ancestor
  | made (number : Nat)
deriving DecidableEq, Repr

/-- What a member holds: an object, or a value that is not entered. -/
inductive Content where
  | object (ref : Reference)
  | value (v : Value)
deriving Repr

/-- All objects, by what has been assigned to their members, the latest first. -/
structure Heap where
  /-- What the ancestor has been given besides its own functions. -/
  ancestor : List (String × Content)
  made : List (List (String × Content))

/-- What the parent of an object reads as. -/
def Reference.parent : Reference → Content
  | .ancestor => .value .null
  | .made _ => .object .ancestor

namespace Heap

/-- What has been assigned to an object. -/
def own (heap : Heap) : Reference → List (String × Content)
  | .ancestor => heap.ancestor
  | .made number => heap.made[number]?.getD []

/-- What a member reads as: the object's own, the parent under the parent's name,
or what the ancestor offers. -/
def read (heap : Heap) (ref : Reference) (name : String) : Content :=
  match (heap.own ref).lookup name with
  | some content => content
  | none =>
    if name = Value.parentName then ref.parent
    else
      match heap.ancestor.lookup name with
      | some content => content
      | none => .value ((Family.record.offers? name).getD .undefined)

/-- Another object, which has no members yet. -/
def make (heap : Heap) : Reference × Heap :=
  (.made heap.made.length, { heap with made := heap.made ++ [[]] })

/-- Whether an assignment would replace the parent: under the parent's name, unless
the object has a member so called. -/
def replacesParent (heap : Heap) (ref : Reference) (name : String) : Bool :=
  name == Value.parentName && ((heap.own ref).lookup name).isNone

/-- Assigns a member. A value that is no object does not replace the parent. -/
def assign (heap : Heap) (ref : Reference) (name : String) (content : Content) : Heap :=
  if heap.replacesParent ref name then heap
  else
    match ref with
    | .ancestor => { heap with ancestor := (name, content) :: heap.ancestor }
    | .made number => { heap with made := heap.made.modify number ((name, content) :: ·) }

/-- What own members lead to along a path. -/
def reach? (heap : Heap) : Content → List String → Option Content
  | content, [] => some content
  | .object ref, segment :: rest => ((heap.own ref).lookup segment).bind (heap.reach? · rest)
  | .value _, _ :: _ => none

end Heap

/-- What a loading does with an object. -/
inductive Move where
  | makes (ref : Reference)
  | enters (ref : Reference)
  | assigns (ref : Reference) (name : String)
deriving DecidableEq, Repr

/-- The object that a move concerns. -/
def Move.ref : Move → Reference
  | .makes ref | .enters ref | .assigns ref _ => ref

/-- A loading in progress, with its moves, the latest first. -/
structure Assembly where
  heap : Heap
  moves : List Move

namespace Assembly

def make (assembly : Assembly) : Reference × Assembly :=
  let (fresh, heap) := assembly.heap.make
  (fresh, { heap, moves := .makes fresh :: assembly.moves })

def enter (assembly : Assembly) (ref : Reference) : Assembly :=
  { assembly with moves := .enters ref :: assembly.moves }

def assign (assembly : Assembly) (ref : Reference) (name : String) (content : Content) :
    Assembly :=
  { heap := assembly.heap.assign ref name content, moves := .assigns ref name :: assembly.moves }

/-- Enters the object that a segment leads to, which is made if there is none. Only
the ancestor has no object for a parent, and it cannot be given one. -/
def descend? (assembly : Assembly) (ref : Reference) (segment : String) :
    Option (Reference × Assembly) :=
  match assembly.heap.read ref segment with
  | .object next => some (next, assembly.enter next)
  | .value _ =>
    if assembly.heap.replacesParent ref segment then none
    else
      let (fresh, made) := assembly.make
      some (fresh, (made.assign ref segment (.object fresh)).enter fresh)

/-- Assigns a value at the end of a path that starts from an object. -/
def assignAt? (assembly : Assembly) (ref : Reference) (value : Value) :
    List String → Option Assembly
  | [] => some assembly
  | [last] => some (assembly.assign ref last (.value value))
  | segment :: rest =>
    match assembly.descend? ref segment with
    | some (next, descended) => descended.assignAt? next value rest
    | none => none

/-- Assigns the variables for settings in order. -/
def assignAll? (assembly : Assembly) (root : Reference) : Environment → Option Assembly
  | [] => some assembly
  | (name, text) :: rest =>
    match variablePath? name with
    | none => assembly.assignAll? root rest
    | some path =>
      match assembly.assignAt? root (variableValue text) path with
      | some assigned => assigned.assignAll? root rest
      | none => none

end Assembly

/-- Loads an environment into an object that is made for it. -/
def Heap.load? (heap : Heap) (environment : Environment) : Option (Reference × Assembly) :=
  let (root, begun) := Assembly.make { heap, moves := [] }
  (begun.assignAll? root environment).map fun loaded => (root, loaded)

end NamedArguments.Settings
