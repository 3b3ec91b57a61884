import NamedArguments.Settings.Layer
import NamedArguments.Settings.Path
import NamedArguments.Text.LowerCase

/-!
Settings from environment variables. A variable counts when its name starts
with the mark; the rest of the name, in lower case and with each double
underscore read as a dot, is the path of a setting. Variables are assigned in
the order in which they were first set, each creating the objects on its way.
-/
namespace NamedArguments.Settings

/-- Variables with their values, in the order in which they were first set. -/
abbrev Environment := List (String × String)

namespace Environment

/-- A variable that is set keeps its place; any other comes last. -/
def set (environment : Environment) (name value : String) : Environment :=
  if environment.any (·.1 == name) then
    environment.map fun entry => if entry.1 = name then (name, value) else entry
  else environment ++ [(name, value)]

def unset (environment : Environment) (name : String) : Environment :=
  environment.filter (·.1 != name)

end Environment

/-- What the names of variables for settings start with. -/
def environmentMark : String := "KWARGS_"

/-- Reads each double underscore, from the left, as a dot. -/
def dotUnderscores : List Char → List Char
  | '_' :: '_' :: rest => '.' :: dotUnderscores rest
  | c :: rest => c :: dotUnderscores rest
  | [] => []

/-- The part of a text after a mark at its start. -/
def afterMark? : List Char → List Char → Option (List Char)
  | [], rest => some rest
  | m :: mark, c :: rest => if m = c then afterMark? mark rest else none
  | _ :: _, [] => none

/-- The segments of the setting that a variable names, if it names one. -/
def variablePath? (name : String) : Option (List String) :=
  (afterMark? environmentMark.toList name.toList).map fun rest =>
    (splitDots (dotUnderscores (Text.lower rest))).map String.ofList

/-- The value that a variable's text stands for: yes or no, a number where all
is digits, or the text itself. -/
def variableValue (text : String) : Value :=
  if text = "1" ∨ text = "true" then .bool true
  else if text = "0" ∨ text = "false" ∨ text = "" then .bool false
  else
    match Text.decimal? text.toList with
    | some n => .number (.ofNat n)
    | none => .text text

/-- Sets the value at the end of a path, creating objects on the way where
there are none. `none` when the way leads into an object that is inherited,
which is shared with every other object. -/
def put? (tree : Value) (value : Value) : List String → Option Value
  | [] => some tree
  | [last] => some (tree.assign last value)
  | segment :: rest =>
    match tree.ownMembers.lookup segment with
    | some own =>
      let start := if own.isRecord then own else empty
      (put? start value rest).map (tree.assign segment)
    | none =>
      if (tree.member segment).isRecord then none
      else (put? empty value rest).map (tree.assign segment)

/-- Assigns the variables for settings in order. -/
def loadFrom? (tree : Value) : Environment → Option Value
  | [] => some tree
  | (name, text) :: rest =>
    match variablePath? name with
    | none => loadFrom? tree rest
    | some path =>
      match put? tree (variableValue text) path with
      | some grown => loadFrom? grown rest
      | none => none

/-- The layer that an environment gives. -/
def environmentLayer (environment : Environment) : Value :=
  (loadFrom? empty environment).getD empty

end NamedArguments.Settings
