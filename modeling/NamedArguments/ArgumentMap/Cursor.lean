import NamedArguments.ArgumentMap

/-!
Iteration over arguments that may change meanwhile. A cursor remembers the stamp
it has passed, so removals do not shift it and later additions lie ahead; once
it has come to the end it stays there.
-/
namespace NamedArguments

/-- A place in the order of stamps. -/
structure Cursor where
  /-- All stamps below have been passed. -/
  position : Nat
  done : Bool
deriving DecidableEq, Repr

namespace Cursor

def start : Cursor := { position := 0, done := false }

/-- The first live entry that the cursor has not passed. -/
def ahead? (cursor : Cursor) (args : ArgumentMap) : Option MapEntry :=
  args.entries.find? fun entry => decide (cursor.position ≤ entry.stamp)

/-- The next entry, if any, and the cursor behind it. -/
def next (cursor : Cursor) (args : ArgumentMap) : Option MapEntry × Cursor :=
  if cursor.done then (none, cursor)
  else
    match cursor.ahead? args with
    | some entry => (some entry, { cursor with position := entry.stamp + 1 })
    | none => (none, { cursor with done := true })

end Cursor
end NamedArguments
