import GraphMarkup.Output.Fault
import GraphMarkup.Text.Bytes

/-!
# Trees of files

A tree of files held in memory answers as a file system would that has this tree at its working
directory and is otherwise made of directories without contents. A path is walked step by step;
each step needs a directory to start from, the empty step and the step to a directory itself
included, so a path that goes on after a file, if only by a slash, leads nowhere. A path that
holds a null character is turned away before anything else is looked at.
-/

namespace GraphMarkup

/-- The steps of a path, as they stand between its slashes. -/
abbrev Steps := List String

/-- What a tree holds at a place. -/
inductive Entry where
  | file (bytes : Bytes)
  | directory
deriving DecidableEq, Repr, Inhabited

/-- Entries by the names on the way to them. A directory need not have an entry of its own if
something lies in it. -/
structure FileTree where
  entries : List (List String × Entry) := []
deriving DecidableEq, Repr, Inhabited

/-- Where a path has led so far. -/
inductive Place where
  /-- Below the working directory, by the names on the way. -/
  | inside (names : List String)
  /-- In a directory that does not lie below the working directory. -/
  | outside
deriving DecidableEq, Repr, Inhabited

/-- The steps of a path. -/
def pathSteps (path : String) : Steps := (path.toList.splitOn '/').map String.ofList

/-- A path that starts from a directory. Nothing is put between them where the directory ends in
a slash, and a path that starts with a slash does not start from the directory. -/
def joinPath (directory name : String) : String :=
  if name.toList.head? = some '/' then name
  else if directory.isEmpty || directory.toList.getLast? == some '/' then directory ++ name
  else directory ++ "/" ++ name

/-- The longest name that a directory can hold, in bytes. -/
def longestName : Nat := 255

/-- The longest path that can be asked for, in bytes. -/
def longestPath : Nat := 4095

namespace FileTree

/-- The tree with some entries at paths that hold names only. -/
def ofList (entries : List (String × Entry)) : FileTree :=
  ⟨entries.map fun (path, e) => ((pathSteps path).filter fun s => !s.isEmpty && s != ".", e)⟩

/-- What the tree holds under some names. -/
def entryAt? (t : FileTree) (names : List String) : Option Entry :=
  match t.entries.lookup names with
  | some e => some e
  | none =>
    if names.isEmpty || t.entries.any (fun (ns, _) => names.isPrefixOf ns) then some .directory
    else none

/-- Takes one step of a path. -/
def step (t : FileTree) (place : Place) (s : String) : Except Fault Place := do
  if let .inside names := place then
    if let some (.file _) := t.entryAt? names then
      throw .notDirectory
  match s, place with
  | "", _ => return place
  | ".", _ => return place
  | "..", .outside => return .outside
  | "..", .inside [] => return .outside
  | "..", .inside names => return .inside names.dropLast
  | name, place =>
    if (Text.encode name).length > longestName then
      throw .nameTooLong
    match place with
    | .outside => throw .noSuchFile
    | .inside names =>
      if (t.entryAt? (names ++ [name])).isSome then return .inside (names ++ [name])
      else throw .noSuchFile

/-- Where a path leads. -/
def walk (t : FileTree) (path : String) : Except Fault Place :=
  if path.toList.contains '\x00' then throw .nulInPath
  else if path.isEmpty then throw .noSuchFile
  else if (Text.encode path).length > longestPath then throw .nameTooLong
  else
    let start := if path.toList.head? = some '/' then Place.outside else .inside []
    (pathSteps path).foldlM t.step start

/-- The bytes of the file that a path leads to. -/
def read (t : FileTree) (path : String) : Except Fault Bytes := do
  match ← t.walk path with
  | .outside => throw .isDirectory
  | .inside names =>
    match t.entryAt? names with
    | some (.file bytes) => return bytes
    | some .directory => throw .isDirectory
    | none => throw .noSuchFile

end FileTree

end GraphMarkup
