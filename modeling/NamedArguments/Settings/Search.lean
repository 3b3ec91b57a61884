import NamedArguments.Settings.Finder
import NamedArguments.Settings.Import

/-!
The search for configuration files in the working directory. Manifests are consulted
first, and one that cannot be used keeps the search from starting. Then the places
are searched in a fixed order; places that hold nothing are passed over, and the first
that holds something ends the search, whatever it is.
-/
namespace NamedArguments.Settings

/-- Where settings are looked for, in order. -/
def searchPlaces : List String :=
  ["package.json", ".kwargsrc", ".kwargsrc.json", ".kwargsrc.yaml", ".kwargsrc.yml",
    ".kwargsrc.cjs", "kwargs.config.cjs"]

/-- A value written into a text, or the failure that it cannot be. -/
def writing (v : Value) : Except Value String :=
  match v.written? with
  | some text => .ok text
  | none => .error (failure "TypeError" "Cannot convert object to primitive value")

/-- How a thrown value can be told. A symbol has a text, although it cannot be written
into one. -/
def Thrown.ofValue (v : Value) : Thrown :=
  { isFailure := v.isFailure
    message := writing (v.member "message")
    text :=
      match Keyword.ofValue? v with
      | some (.text text) => .ok text
      | some symbol => .ok ("Symbol(" ++ symbol.name ++ ")")
      | none => writing v }

/-- What a place says: absent and blank files say nothing, and neither does
null. A file that fails to load throws. -/
def lookIn (folder : Folder) (place : String) : Except Thrown (Option Found) :=
  match folder.read folder.length [] place with
  | .absent | .blank => .ok none
  | .value v => .ok (if v.isGiven then some { path := place, config := v, isEmpty := false } else none)
  | .failure thrown => .error (.ofValue thrown)

/-- The first place that has something to say, with what it says. -/
def search (folder : Folder) : List String → Except Thrown (Option Found)
  | [] => .ok none
  | place :: rest =>
    match lookIn folder place with
    | .ok none => search folder rest
    | finding => finding

/-- The manifests that are consulted before any search, in order. -/
def manifests : List String := ["package.json", "package.yaml"]

/-- Consults manifests, each for its members. One that does not parse throws, and so
does null, which has none; a blank one ends the consultation. -/
def consult (folder : Folder) : List String → Except Value Unit
  | [] => .ok ()
  | manifest :: rest =>
    match folder.lookup manifest with
    | some (.malformed thrown) | some (.failing thrown) => .error thrown
    | some (.holds .null) => .error (failure "TypeError" (manifest ++ " has no members"))
    | some .blank => .ok ()
    | _ => consult folder rest

/-- What looking for a configuration file comes to in a directory. -/
def Folder.finder (folder : Folder) : Finder :=
  { start := consult folder manifests, find := search folder searchPlaces }

end NamedArguments.Settings
