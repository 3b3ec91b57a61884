import NamedArguments.ArgumentMap.Change
import NamedArguments.ArgumentMap.Cursor

/-!
Walks over arguments that change meanwhile. Any number of walkers may be on
their way over the same arguments at once. Each shows the keys that it comes to,
or the entries, and finds the arguments at every step as they are by then.
-/
namespace NamedArguments

/-- What a walker shows of the entries that it comes to. -/
inductive Facet where
  | keys
  | entries
deriving DecidableEq, Repr

/-- What a step of a walker shows. -/
inductive Sight where
  | key (key : Value)
  | entry (key value : Value)
  | done

/-- The key that is in sight. -/
def Sight.key? : Sight → Option Value
  | .key k | .entry k _ => some k
  | .done => none

/-- What is shown of an entry, or that there is none. -/
def Facet.sight : Facet → Option MapEntry → Sight
  | .keys, some entry => .key entry.key
  | .entries, some entry => .entry entry.key entry.value
  | _, none => .done

/-- Someone on the way over arguments. -/
structure Walker where
  facet : Facet
  cursor : Cursor

namespace Walker

def start (facet : Facet) : Walker := { facet, cursor := .start }

/-- Goes on to the next entry, if there is one. -/
def next (walker : Walker) (args : ArgumentMap) : Sight × Walker :=
  let (entry, cursor) := walker.cursor.next args
  (walker.facet.sight entry, { walker with cursor })

end Walker

/-- Arguments with all who are on their way over them. -/
structure Walk where
  args : ArgumentMap
  walkers : List Walker

namespace Walk

/-- What may happen next. -/
inductive Step where
  | change (change : Change)
  /-- One more walker sets out. -/
  | start (facet : Facet)
  /-- A walker goes on, if there is one of that number. -/
  | next (walker : Nat)

def Step.change? : Step → Option Change
  | .change made => some made
  | _ => none

/-- Arguments that nobody walks over yet. -/
def of (args : ArgumentMap) : Walk := { args, walkers := [] }

/-- What a step shows, if it is a walker's, and the walk after it. -/
def perform (walk : Walk) : Step → Option Sight × Walk
  | .change change => (none, { walk with args := walk.args.change change })
  | .start facet => (none, { walk with walkers := walk.walkers ++ [.start facet] })
  | .next index =>
    match walk.walkers[index]? with
    | none => (none, walk)
    | some walker =>
      let (sight, moved) := walker.next walk.args
      (some sight, { walk with walkers := walk.walkers.set index moved })

/-- The walk after steps. -/
def after (walk : Walk) (steps : List Step) : Walk :=
  steps.foldl (fun walk step => (walk.perform step).2) walk

theorem after_concat (walk : Walk) (steps : List Step) (step : Step) :
    walk.after (steps ++ [step]) = ((walk.after steps).perform step).2 := by
  simp [after]

end Walk
end NamedArguments
