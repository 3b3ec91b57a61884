import NamedArguments.Value.Member

/-!
Files of the working directory. A file is given by the value that it holds; its
name tells how it is read, and whether it is a manifest, in which settings are
one member among others. Paths to files are followed as far as they stay in the
directory.
-/
namespace NamedArguments.Settings

/-- What a directory has under a name. -/
inductive FileContent where
  | directory
  /-- A file of white space. -/
  | blank
  /-- A file that does not parse, and what the parser throws. -/
  | malformed (thrown : Value)
  /-- A script that throws when it is run. -/
  | failing (thrown : Value)
  /-- A file by the value it holds. -/
  | holds (v : Value)

/-- The files of the working directory by name. -/
abbrev Folder := List (String × FileContent)

namespace Folder

def remove (folder : Folder) (name : String) : Folder := folder.filter (·.1 != name)

def put (folder : Folder) (name : String) (content : FileContent) : Folder :=
  (name, content) :: folder.remove name

end Folder

/-- A failure that is told from others by its name and its message. -/
def failure (name message : String) : Value :=
  .object .merged (.ancestor .failure) [("name", .text name), ("message", .text message)]

/-- A file's name up to its last dot, and its extension. A dot at the start
makes none. -/
def splitExtension (name : List Char) : List Char × Option (List Char) :=
  let after := (name.reverse.takeWhile (· != '.')).reverse
  if after.length + 1 < name.length then
    (name.take (name.length - after.length - 1), some after)
  else (name, none)

/-- The extensions of files that can be read; a file without one can be, too. -/
def readableExtensions : List String := ["json", "yaml", "yml", "js", "ts", "cjs"]

def isReadable (name : String) : Bool :=
  match (splitExtension name.toList).2 with
  | some extension => readableExtensions.contains (String.ofList extension)
  | none => true

/-- Whether a file of a name describes a package. -/
def isManifest (name : String) : Bool := (splitExtension name.toList).1 == "package".toList

/-- The manifest's member for settings. -/
def manifestMember : String := "kwargs"

/-- The names left to go through after a step of a path, the latest first;
`none` where the path leaves the directory. -/
def pathStep (names : Option (List String)) (step : String) : Option (List String) :=
  match names, step with
  | some names, "" | some names, "." => some names
  | some (_ :: names), ".." => some names
  | some [], ".." => none
  | some names, step => some (step :: names)
  | none, _ => none

/-- The entry of the directory that a path leads to, if it leads to one. -/
def entryAt? (path : String) : Option String :=
  if path.toList.head? = some '/' then none
  else
    match (path.splitOn "/").foldl pathStep (some []) with
    | some [name] => some name
    | _ => none

end NamedArguments.Settings
