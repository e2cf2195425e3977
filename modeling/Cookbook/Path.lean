import Cookbook.Text.Split

/-!
# Paths

A path is shown as it was put together, so it is held as its text. Two paths are the same place in
the text if their components agree; empty components and `.` do not count, except for a `.` in
front.

## Main definitions

* `Path`: the text of a path.
* `Path.join`, `Path.parent?`, `Path.fileName?`: putting paths together and taking them apart.
* `Path.components`, `Path.same`: what a path consists of.
-/

namespace Cookbook

/-- A path, by its text. -/
structure Path where
  /-- The text. -/
  text : String
  deriving DecidableEq, Repr, Inhabited

namespace Path

/-- A step of a path. -/
inductive Component where
  /-- The top of the file system. -/
  | top
  /-- The place itself, at the start of a path. -/
  | here
  /-- The directory above. -/
  | up
  /-- An entry of a directory. -/
  | entry (name : String)
  deriving DecidableEq, Repr

/-- Whether the path starts at the top of the file system. -/
def isAbsolute (p : Path) : Bool := Text.hasStart "/" p.text

/-- Go on from a path; an absolute continuation replaces it. -/
def join (p : Path) (next : String) : Path :=
  if Text.hasStart "/" next || p.text.isEmpty then ⟨next⟩
  else if Text.hasEnd "/" p.text then ⟨p.text ++ next⟩
  else ⟨p.text ++ "/" ++ next⟩

/-- The path itself, or `.` if it is empty: one can go on from the empty path, which stands for the
working directory then, but it leads nowhere by itself. -/
def orHere (p : Path) : Path := if p.text.isEmpty then ⟨"."⟩ else p

/-- The steps of a path. -/
def components (p : Path) : List Component :=
  let pieces := Text.split '/' p.text
  let first : List Component :=
    if p.isAbsolute then [.top] else if pieces.head? == some "." then [.here] else []
  let step : String → Option Component
    | "" | "." => none
    | ".." => some .up
    | name => some (.entry name)
  first ++ pieces.filterMap step

/-- Whether two paths have the same steps. -/
def same (p q : Path) : Bool := p.components == q.components

/-- Characters from the end of a path, last first, without separators and `.` steps that end it. -/
def trimEnd : List Char → List Char
  | '/' :: rest => if rest.isEmpty then ['/'] else trimEnd rest
  | '.' :: '/' :: rest => if rest.isEmpty then ['/'] else trimEnd rest
  | cs => cs

/-- The name of the entry that the path ends in. -/
def fileName? (p : Path) : Option String :=
  match p.components.getLast? with
  | some (.entry name) => some name
  | _ => none

/-- The path without its last step; there is none above the top and above the empty path. -/
def parent? (p : Path) : Option Path :=
  match p.components.getLast? with
  | none | some .top => none
  | some _ =>
    let above := (trimEnd p.text.toList.reverse).dropWhile (· != '/')
    some ⟨String.ofList (trimEnd above).reverse⟩

/-- The single step of a path that is the plain name of an entry. -/
def plainName? (name : String) : Option String :=
  match (Path.mk name).components with
  | [.entry n] => some n
  | _ => none

/-! ### File names -/

/-- A file name as the part before its last dot and the part after; a name without a dot, or with
its only dot in front, has no second part. -/
def splitExtension (name : String) : String × Option String :=
  match (name.toList.reverse.dropWhile (· != '.')) with
  | _ :: before =>
    if before.isEmpty || name == ".." then (name, none)
    else (String.ofList before.reverse, some (Text.afterLast '.' name))
  | [] => (name, none)

end Path

end Cookbook
