import Cookbook.Files

/-!
# Changes of files

What has to be done to files as they were to make them as they are: directories to make, files to
write and files to remove. Directories come before what is in them.

## Main definitions

* `FileChange`: one thing to do.
* `Files.changesTo`: everything to do.
-/

namespace Cookbook

/-- A change to a place, which is given by the names that lead to it from the top. -/
inductive FileChange where
  /-- Make a directory. -/
  | makeDirectory (names : List String)
  /-- Create or replace a file. -/
  | write (names : List String) (content : FileContent)
  /-- Remove a file. -/
  | remove (names : List String)

namespace FileContent

/-- Whether two files hold the same. -/
def same : FileContent → FileContent → Bool
  | text s, text t => s == t
  | bytes a, bytes b => a == b
  | _, _ => false

end FileContent

namespace Files

/-- What has to be done at a place for what is to be there. -/
def changeAt? (before : Files) (names : List String) : FileTree → Option FileChange
  | .dir _ =>
    match before.tree.get? names with
    | some (.dir _) => none
    | _ => some (.makeDirectory names)
  | .file new =>
    match before.tree.get? names with
    | some (.file old) => if new.same old then none else some (.write names new)
    | _ => some (.write names new)

/-- The files that are there no more. -/
def removed (before after : Files) : List FileChange :=
  ((before.tree.walk []).filter fun e => e.2.isFile && (after.tree.get? e.1).isNone).map
    fun e => .remove e.1

/-- Everything that has to be done to make files as they were into files as they are. -/
def changesTo (before after : Files) : List FileChange :=
  removed before after ++ (after.tree.walk []).filterMap fun e => before.changeAt? e.1 e.2

/-- The names that lead to a path from the top, by its text alone. -/
def namesOf (working : List String) (p : Path) : List String :=
  let step (names : List String) : Path.Component → List String
    | .top => []
    | .here => names
    | .up => names.dropLast
    | .entry n => names ++ [n]
  p.components.foldl step working

end Files

end Cookbook
