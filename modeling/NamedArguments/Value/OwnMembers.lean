import NamedArguments.Value
import NamedArguments.Text.Digits

/-!
Own members of an object, in the order in which they are enumerated. Names that
spell list positions come first in ascending order; the others keep the order
in which they were first defined. Defining a member changes what is found under
its name and nothing else.
-/
namespace NamedArguments

namespace Members

/-- Whether a member stands before position `n`. -/
def precedes (n : Nat) (member : String × Value) : Bool :=
  match Text.position? member.1 with
  | some m => decide (m < n)
  | none => false

/-- Adds a member whose name is new. -/
def place (members : Members) (name : String) (v : Value) : Members :=
  match Text.position? name with
  | some n => members.takeWhile (precedes n) ++ (name, v) :: members.dropWhile (precedes n)
  | none => members ++ [(name, v)]

/-- Defines a member: one of that name keeps its place and takes the value. -/
def define (members : Members) (name : String) (v : Value) : Members :=
  if members.any (·.1 == name) then
    members.map fun member => if member.1 = name then (name, v) else member
  else place members name v

/-- Members defined one after the other. -/
def ofList (pairs : List (String × Value)) : Members :=
  pairs.foldl (fun members pair => define members pair.1 pair.2) []

theorem lookup_cons (own name : String) (v : Value) (rest : Members) :
    List.lookup name ((own, v) :: rest) = if name = own then some v else rest.lookup name := by
  by_cases same : name = own
  · simp [same]
  · simp [List.lookup_cons, same, beq_eq_false_iff_ne.mpr same]

private theorem lookup_replace (members : Members) (name other : String) (v : Value) :
    (members.map fun member => if member.1 = name then (name, v) else member).lookup other =
      if other = name then (members.lookup name).map fun _ => v else members.lookup other := by
  induction members with
  | nil => simp
  | cons member rest ih =>
    obtain ⟨own, held⟩ := member
    by_cases same : own = name
    · subst same
      simp only [List.map_cons, if_true, lookup_cons, ih]
      split <;> rfl
    · simp only [List.map_cons, if_neg same, lookup_cons, ih, if_neg (Ne.symm same)]
      by_cases asked : other = own
      · simp [asked, same]
      · simp [asked]

private theorem lookup_place (members : Members) (name other : String) (v : Value)
    (fresh : members.lookup name = none) :
    (place members name v).lookup other =
      if other = name then some v else members.lookup other := by
  unfold place
  split
  next n _ =>
    have parts := List.takeWhile_append_dropWhile (p := precedes n) (l := members)
    have split := congrArg (List.lookup other) parts
    have freshParts := congrArg (List.lookup name) parts
    rw [List.lookup_append] at split freshParts
    rw [List.lookup_append, lookup_cons]
    by_cases asked : other = name
    · subst asked
      rw [fresh] at freshParts
      simp [(Option.or_eq_none_iff.mp freshParts).1]
    · simp [asked, split]
  next =>
    rw [List.lookup_append, lookup_cons]
    by_cases asked : other = name
    · subst asked
      simp [fresh]
    · simp [asked]

theorem isSome_lookup (members : Members) (name : String) :
    (members.lookup name).isSome = members.any (·.1 == name) := by
  induction members with
  | nil => rfl
  | cons member rest ih =>
    obtain ⟨own, held⟩ := member
    rw [lookup_cons, List.any_cons, ← ih]
    by_cases same : name = own
    · simp [same]
    · simp [same, beq_eq_false_iff_ne.mpr (Ne.symm same)]

/-- Defining a member changes what is found under its name and nothing else. -/
theorem lookup_define (members : Members) (name other : String) (v : Value) :
    (define members name v).lookup other =
      if other = name then some v else members.lookup other := by
  unfold define
  rw [← isSome_lookup]
  split
  next held =>
    obtain ⟨old, found⟩ := Option.isSome_iff_exists.mp held
    simp [lookup_replace, found]
  next absent =>
    exact lookup_place members name other v (Option.not_isSome_iff_eq_none.mp absent)

end Members
end NamedArguments
