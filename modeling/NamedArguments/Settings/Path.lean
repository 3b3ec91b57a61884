import NamedArguments.Value.Member

/-!
Dotted paths into settings. A path is cut at its dots, and each segment names a
member, own or inherited, of the object reached so far. Lists and functions are
not entered.
-/
namespace NamedArguments.Settings

/-- The pieces of a text between its dots; there is always one. -/
def splitDots : List Char → List (List Char)
  | [] => [[]]
  | '.' :: rest => [] :: splitDots rest
  | c :: rest =>
    match splitDots rest with
    | [] => [[c]]
    | piece :: pieces => (c :: piece) :: pieces

/-- The segments of a path. -/
def segments (path : String) : List String := (splitDots path.toList).map String.ofList

/-- The value that segments lead to; undefined where they lead nowhere. -/
def follow (v : Value) : List String → Value
  | [] => v
  | segment :: rest => if v.isRecord then follow (v.member segment) rest else .undefined

/-- Whether segments meet a member that may not be read. -/
def followRefused (v : Value) : List String → Bool
  | [] => false
  | segment :: rest =>
    v.isRecord && (v.refusesReading segment || followRefused (v.member segment) rest)

end NamedArguments.Settings
