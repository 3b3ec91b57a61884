import NamedArguments.Settings.Folder

/-!
Reading a configuration file. A file may name others, which are read first and
laid below it in the order in which they are named: objects are joined member by
member and lists one behind the other, and for the rest the later file wins.
Members under the names of what objects inherit from are left out of this. A
file that is named and does not exist makes the naming file count as absent; a
file that names itself, directly or through others, cannot be read.
-/
namespace NamedArguments.Settings

/-- What the reading of a file comes to. -/
inductive Reading where
  /-- There is no such file. -/
  | absent
  | blank
  | value (v : Value)
  /-- Reading throws. -/
  | failure (thrown : Value)

/-- A reading that fails with a message of its own. -/
def Reading.fails (message : String) : Reading := .failure (Settings.failure "Error" message)

/-- What a file says by itself. A manifest says what its member for settings
holds, and has to hold something. -/
def Folder.contentOf (folder : Folder) (name : String) : Reading :=
  match folder.lookup name with
  | none | some .directory => .absent
  | some .blank => .blank
  | some (.malformed thrown) | some (.failing thrown) => .failure thrown
  | some (.holds v) =>
    if !isReadable name then .fails ("no loader for " ++ name)
    else if !isManifest name then .value v
    else if v.isGiven then .value ((v.member manifestMember).orElse .null)
    else .fails (name ++ " holds nothing")

/-- The member of a file that names others. -/
def importMember : String := "$import"

/-- What a file says about others, if it does. -/
def imports? : Value → Option Value
  | .object _ _ members => members.lookup importMember
  | _ => none

/-- The paths that a file names others by: one, or a list of them. -/
def importPaths? (v : Value) : Option (List String) :=
  match v with
  | .list _ items => items.mapM fun item =>
      match item with
      | .text path => some path
      | _ => none
  | .text path => some [path]
  | _ => none

/-- Members that are never joined: under these names an object answers with
what it inherits from. -/
def withheldMembers : List String := ["__proto__", "constructor", "prototype"]

mutual

/-- The value of a member that a later file gives as `new` and the files before
it as `old`, if they do. -/
def blend (old : Option Value) : Value → Value
  | .list identity items =>
    match old with
    | some (.list _ before) => .list .merged (before ++ items)
    | _ => .list identity items
  | .object identity parent members =>
    match old with
    | some (.object below above before) => .object below above (blendMembers before members)
    | _ => .object identity parent members
  | new => new
termination_by structural new => new

/-- Gives a later file's members, one after the other, to what the files before
it make. -/
def blendMembers (made : Members) : List (String × Value) → Members
  | [] => made
  | (name, new) :: rest =>
    if withheldMembers.contains name then blendMembers made rest
    else blendMembers (Members.define made name (blend (made.lookup name) new)) rest
termination_by structural members => members

end

/-- The values of files that are to be laid over one another. The first that is
absent or fails stands for all; one that holds nothing cannot be laid. -/
def gather : List Reading → Except Reading (List Value)
  | [] => .ok []
  | .value v :: rest =>
    match gather rest with
    | .error instead => .error instead
    | .ok values => if v.isGiven then .ok (v :: values) else .error (.fails "nothing to import")
  | .blank :: rest =>
    match gather rest with
    | .error instead => .error instead
    | .ok _ => .error (.fails "nothing to import")
  | reading :: _ => .error reading

/-- A file laid over the files that it names. -/
def layImports (named : List Reading) (members : Members) : Reading :=
  match gather named with
  | .error instead => instead
  | .ok values =>
    let base := values.foldl (fun made v => blendMembers made v.enumerable) []
    .value (.plain .merged (blendMembers base (members.filter (·.1 != importMember))))

/-- Reads a file with all that it names. The files on the way to it may not be
named again, so that no more than `depth` files follow one another. -/
def Folder.read (folder : Folder) : Nat → List String → String → Reading
  | 0, _, name => folder.contentOf name
  | depth + 1, above, name =>
    match folder.contentOf name with
    | .value v =>
      match imports? v with
      | none => .value v
      | some given =>
        match importPaths? given with
        | none => .fails (name ++ ": " ++ importMember ++ " has to be a text or a list of texts")
        | some paths =>
          let way := above ++ [name]
          if paths.any fun path => (entryAt? path).any way.contains then
            .fails (name ++ " imports itself")
          else
            layImports
              (paths.map fun path =>
                match entryAt? path with
                | some entry => folder.read depth way entry
                | none => .absent)
              v.ownMembers
    | reading => reading

end NamedArguments.Settings
