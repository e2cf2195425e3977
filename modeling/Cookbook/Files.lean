import Cookbook.NameMap
import Cookbook.Path

/-!
# Files

The files a site consists of, as a value: a tree of directories with its entries in name order, the
working directory that relative paths start from, and how long names may be. Every operation follows
a path step by step, as an operating system does without links: each step but the last has to be a
directory that is there.

## Main definitions

* `FileTree`: a file with its content, or a directory.
* `Files`: the whole tree, the working directory and how long names may be.
* `Files.readText`, `writeText`, `createDirectories`, `removeFile`: the operations; each says why it
  fails.
* `FileTree.walk`: everything below a directory, in order.
-/

namespace Cookbook

/-- What a file holds. -/
inductive FileContent where
  /-- A text. -/
  | text (s : String)
  /-- Bytes that are no text. -/
  | bytes (b : ByteArray)
  deriving Inhabited

/-- A file or a directory. -/
inductive FileTree where
  /-- A file with its content. -/
  | file (content : FileContent)
  /-- A directory with its entries, in name order. -/
  | dir (entries : List (String × FileTree))
  deriving Inhabited

/-- Why a file operation fails. -/
inductive FileFailure where
  /-- A step of the path is not there. -/
  | notFound
  /-- A step of the path is no directory. -/
  | notDirectory
  /-- The path leads to a directory. -/
  | isDirectory
  /-- The content is no text. -/
  | notText
  /-- A name is too long or has a character that no name may have. -/
  | badName
  deriving DecidableEq, Repr

/-- The wording of a failure. -/
def FileFailure.message : FileFailure → String
  | .notFound => "No such file or directory"
  | .notDirectory => "Not a directory"
  | .isDirectory => "Is a directory"
  | .notText => "stream did not contain valid UTF-8"
  | .badName => "File name too long or invalid"

namespace FileTree

/-! ### Trees -/

/-- Whether it is a directory. -/
def isDir : FileTree → Bool
  | .dir _ => true
  | .file _ => false

/-- Whether it is a file. -/
def isFile (t : FileTree) : Bool := !t.isDir

/-- What is below, by its names from the top. -/
def get? : FileTree → List String → Option FileTree
  | t, [] => some t
  | .file _, _ :: _ => none
  | .dir entries, n :: rest => (NameMap.lookup n entries).bind (·.get? rest)

/-- Replace what is below, by its names from the top, making directories on the way. -/
def put : FileTree → List String → FileTree → FileTree
  | _, [], new => new
  | .file c, _ :: _, _ => .file c
  | .dir entries, n :: rest, new =>
    .dir (NameMap.insertEntry n (put ((NameMap.lookup n entries).getD (.dir [])) rest new) entries)

/-- Take away what is below, by its names from the top. -/
def remove : FileTree → List String → FileTree
  | t, [] => t
  | .file c, _ :: _ => .file c
  | .dir entries, [n] => .dir (entries.filter (fun e => e.1 != n))
  | .dir entries, n :: rest =>
    match NameMap.lookup n entries with
    | some t => .dir (NameMap.insertEntry n (remove t rest) entries)
    | none => .dir entries

mutual

/-- Everything below with the names that lead to it: each directory before its entries, entries in
name order. -/
def walk (above : List String) : FileTree → List (List String × FileTree)
  | .file _ => []
  | .dir entries => walkEntries above entries

/-- The entries of a directory and everything below them. -/
def walkEntries (above : List String) : List (String × FileTree) → List (List String × FileTree)
  | [] => []
  | (n, t) :: rest => (above ++ [n], t) :: walk (above ++ [n]) t ++ walkEntries above rest

end

end FileTree

/-- The files of a machine. -/
structure Files where
  /-- The whole tree. -/
  tree : FileTree := .dir []
  /-- The names that lead to the working directory. -/
  working : List String := []
  /-- How many bytes the name of an entry may have, if that is limited. -/
  nameLimit : Option Nat := some 255
  deriving Inhabited

namespace Files

/-! ### Following paths -/

/-- Whether a directory may have an entry of this name. -/
def isName (fs : Files) (n : String) : Bool := fs.nameLimit.all (n.utf8ByteSize ≤ ·)

/-- Whether a path can be followed at all: there is no NUL in it. -/
def isPath (p : Path) : Bool := !p.text.toList.contains (Char.ofNat 0)

/-- The names that lead to what is one step on from a directory. -/
def step (fs : Files) (place : List String) (piece : String) : Except FileFailure (List String) :=
  match fs.tree.get? place with
  | none => .error .notFound
  | some (.file _) => .error .notDirectory
  | some (.dir entries) =>
    if piece = "" ∨ piece = "." then .ok place
    else if piece = ".." then .ok place.dropLast
    else if !fs.isName piece then .error .badName
    else if (NameMap.lookup piece entries).isSome then .ok (place ++ [piece])
    else .error .notFound

/-- Where following a path starts, and its pieces. -/
def origin (fs : Files) (p : Path) : Except FileFailure (List String × List String) :=
  if !isPath p then .error .badName
  else match Text.split '/' p.text with
    | "" :: rest => .ok ([], rest)
    | pieces => .ok (fs.working, pieces)

/-- The names that lead to where a path goes. -/
def locate (fs : Files) (p : Path) : Except FileFailure (List String) := do
  if p.text.isEmpty then throw .notFound
  let (start, pieces) ← fs.origin p
  pieces.foldlM fs.step start

/-- What a path leads to. -/
def get (fs : Files) (p : Path) : Except FileFailure FileTree := do
  match fs.tree.get? (← fs.locate p) with
  | some t => return t
  | none => throw .notFound

/-- Whether a path leads to a file. -/
def isFile (fs : Files) (p : Path) : Bool :=
  match fs.get p with
  | .ok t => t.isFile
  | .error _ => false

/-- Whether a path leads to a directory. -/
def isDir (fs : Files) (p : Path) : Bool :=
  match fs.get p with
  | .ok t => t.isDir
  | .error _ => false

/-- Whether a path leads anywhere. -/
def holds (fs : Files) (p : Path) : Bool :=
  match fs.get p with
  | .ok _ => true
  | .error _ => false

/-- The absolute path of names from the top. -/
def absolute (names : List String) : Path := ⟨"/" ++ "/".intercalate names⟩

/-- The absolute path without `.` and `..` of what a path leads to. -/
def canonical (fs : Files) (p : Path) : Except FileFailure Path := do
  return absolute (← fs.locate p)

/-! ### Operations -/

/-- The text of a file. -/
def readText (fs : Files) (p : Path) : Except FileFailure String := do
  match ← fs.get p with
  | .file (.text s) => return s
  | .file (.bytes _) => throw .notText
  | .dir _ => throw .isDirectory

/-- The entries of a directory, in name order. -/
def readDir (fs : Files) (p : Path) : Except FileFailure (List (String × FileTree)) := do
  match ← fs.get p with
  | .dir entries => return entries
  | .file _ => throw .notDirectory

/-- Write a file; its directory has to be there. -/
def write (fs : Files) (p : Path) (content : FileContent) : Except FileFailure Files := do
  if p.text.isEmpty then throw .notFound
  let (start, pieces) ← fs.origin p
  let last := pieces.getLast?.getD ""
  let above ← pieces.dropLast.foldlM fs.step start
  match fs.step above last with
  | .ok names =>
    match fs.tree.get? names with
    | some (.file _) => return { fs with tree := fs.tree.put names (.file content) }
    | _ => throw .isDirectory
  | .error .notFound => return { fs with tree := fs.tree.put (above ++ [last]) (.file content) }
  | .error e => throw e

/-- Write a text file; its directory has to be there. -/
def writeText (fs : Files) (p : Path) (s : String) : Except FileFailure Files :=
  fs.write p (.text s)

/-- Take a step, making a directory where there is nothing. -/
def enter (s : Files × List String) (piece : String) : Except FileFailure (Files × List String) :=
  match s.1.step s.2 piece with
  | .ok names => .ok (s.1, names)
  | .error .notFound =>
    let names := s.2 ++ [piece]
    .ok ({ s.1 with tree := s.1.tree.put names (.dir []) }, names)
  | .error e => .error e

/-- Make a directory and those above it, if they are not there. -/
def createDirectories (fs : Files) (p : Path) : Except FileFailure Files := do
  let (start, pieces) ← fs.origin p
  if p.text.isEmpty then return fs
  let (made, names) ← pieces.foldlM enter (fs, start)
  match made.tree.get? names with
  | some (.dir _) => return made
  | _ => throw .notDirectory

/-- Remove a file. -/
def removeFile (fs : Files) (p : Path) : Except FileFailure Files := do
  let names ← fs.locate p
  match fs.tree.get? names with
  | some (.file _) => return { fs with tree := fs.tree.remove names }
  | some (.dir _) => throw .isDirectory
  | none => throw .notFound

/-- Everything below a directory, each with the path that leads to it. -/
def walk (fs : Files) (p : Path) : List (Path × FileTree) :=
  match fs.get p with
  | .ok t => (t.walk []).map (fun e => (e.1.foldl Path.join p, e.2))
  | .error _ => []

end Files

end Cookbook
