import Cookbook.ConfigObject

/-!
# Storages

A storage holds configuration objects in collections. Some storages hold their objects in memory or
in a directory; others combine storages, and these refuse all changes. A storage is a value: a
change gives a new storage or, for a directory, new files.

Every operation can be asked for a collection. Asked for none, a storage speaks for the collection
it was given with `within`, and otherwise for the default collection.

A directory has one file for each object, `<name>.yml`; a collection other than the default one is
in the subdirectory that its name becomes when its dots are path separators.

## Main definitions

* `Storage`: the storages.
* `Storage.holds`, `read?`, `readMultiple`, `list`, `collectionNames`: what is in a storage.
* `Storage.write`, `Storage.delete`: changes.
* `Storage.exportAll`: everything in it.
-/

namespace Cookbook

/-- A storage of configuration objects. -/
inductive Storage where
  /-- Nothing is in it. -/
  | null
  /-- Objects in memory. -/
  | memory (objects : Snapshot)
  /-- Objects in the files of a directory. -/
  | directory (path : Path)
  /-- Objects that cannot be changed. -/
  | view (objects : Snapshot)
  /-- The objects of two storages; the first one's where both have one. -/
  | merged (first second : Storage)
  /-- The objects of `wrapped`, with the content that `recipe` has for them. -/
  | overriding (recipe wrapped : Storage)
  /-- Reads from the selected objects, if some are selected; changes `active`. -/
  | selecting (selected : Option Snapshot) (active : Storage)
  /-- Speaks for a collection. -/
  | within (collection : String) (storage : Storage)
  deriving Inhabited

namespace Storage

/-! ### Collections -/

/-- The collection a storage speaks for. -/
def collectionName : Storage → String
  | within c _ => c
  | merged first _ => first.collectionName
  | overriding _ wrapped => wrapped.collectionName
  | _ => defaultCollection

/-- The collection meant when none or one is asked for. -/
def collectionOf (c : Option String) : String := c.getD defaultCollection

/-- Storages merged into one; of several that have an object, the earliest counts. -/
def mergeAll : List Storage → Storage
  | [] => null
  | first :: rest => rest.foldl merged first

/-! ### Directories -/

/-- The subdirectory of a collection. -/
def collectionPath (dir : Path) (c : String) : Path :=
  if c = defaultCollection then dir
  else dir.join (String.ofList (c.toList.map (fun ch => if ch = '.' then '/' else ch)))

/-- The file of an object. -/
def filePath (dir : Path) (c name : String) : Path := (collectionPath dir c).join (name ++ ".yml")

/-- The object that a file of this name holds. -/
def objectName? (fileName : String) : Option String :=
  match Path.splitExtension fileName with
  | (stem, some "yml") => some stem
  | _ => none

/-- Read the object of a file, if the file is there. -/
def readFile? (fs : Files) (path : Path) : Except Error (Option ConfigObject) :=
  match fs.readText path with
  | .error .notFound => .ok none
  | .error e => .error (.ofFile e)
  | .ok s =>
    match ConfigObject.decode s with
    | .ok o => .ok (some o)
    | .error e => .error (.config path.text e.message)

/-- The names of the objects in a directory. -/
def objectNames (entries : List (String × FileTree)) : List String :=
  entries.filterMap (fun e => if e.2.isFile then objectName? e.1 else none)

/-- Names in ascending order. -/
def sortNames (names : List String) : List String := names.mergeSort (fun a b => !(b < a))

/-- The names of the objects of a collection in a directory, ascending. -/
def listFiles (fs : Files) (dir : Path) (c : String) : Except Error (List String) :=
  match fs.readDir (collectionPath dir c) with
  | .error .notFound => .ok []
  | .error e => .error (.ofFile e)
  | .ok entries => .ok (sortNames (objectNames entries))

/-- The collections in a directory: its subdirectories that hold objects, each before those inside
it. -/
def collectionsIn (fs : Files) (dir : Path) : List String :=
  match fs.get dir with
  | .ok t => (t.walk []).filterMap fun (names, t) =>
    match t with
    | .dir entries => if (objectNames entries).isEmpty then none else some (".".intercalate names)
    | .file _ => none
  | .error _ => []

/-- Write the file of an object, making its directory. The directory stays when the object cannot
be written. -/
def writeFile (fs : Files) (path : Path) (o : ConfigObject) : Except Error Unit × Files :=
  match fs.createDirectories (path.parent?.getD ⟨""⟩) with
  | .error e => (.error (.ofFile e), fs)
  | .ok fs =>
    match ConfigObject.encode o with
    | .error e => (.error e, fs)
    | .ok s =>
      match fs.writeText path s with
      | .error e => (.error (.ofFile e), fs)
      | .ok fs => (.ok (), fs)

/-- Remove the file of an object; the answer says whether it was there. -/
def deleteFile (fs : Files) (path : Path) : Except Error Bool × Files :=
  match fs.removeFile path with
  | .ok fs => (.ok true, fs)
  | .error .notFound => (.ok false, fs)
  | .error e => (.error (.ofFile e), fs)

/-! ### Reading -/

/-- Whether there is an object of this name. -/
def holds (fs : Files) (c : Option String) (name : String) : Storage → Except Error Bool
  | null => .ok false
  | memory o => .ok ((Snapshot.collection o (collectionOf c)).contains name)
  | directory dir => .ok (fs.isFile (filePath dir (collectionOf c) name))
  | view o => .ok ((Snapshot.collection o (collectionOf c)).contains name)
  | merged first second => do
    if ← holds fs c name first then return true
    holds fs c name second
  | overriding _ wrapped => holds fs c name wrapped
  | selecting (some o) _ => .ok ((Snapshot.collection o (collectionOf c)).contains name)
  | selecting none active => holds fs (some (collectionOf c)) name active
  | within c' s => holds fs (some (c.getD c')) name s

/-- The object of this name. -/
def read? (fs : Files) (c : Option String) (name : String) :
    Storage → Except Error (Option ConfigObject)
  | null => .ok none
  | memory o => .ok ((Snapshot.collection o (collectionOf c)).get? name)
  | directory dir => readFile? fs (filePath dir (collectionOf c) name)
  | view o => .ok ((Snapshot.collection o (collectionOf c)).get? name)
  | merged first second => do
    match ← read? fs c name first with
    | some o => return some o
    | none => read? fs c name second
  | overriding recipe wrapped => do
    if ← holds fs c name wrapped then
      if ← holds fs c name recipe then return ← read? fs c name recipe
    read? fs c name wrapped
  | selecting (some o) _ => .ok ((Snapshot.collection o (collectionOf c)).get? name)
  | selecting none active => read? fs (some (collectionOf c)) name active
  | within c' s => read? fs (some (c.getD c')) name s

/-- Read names one after the other; those that are not there are left out. -/
def readEach (read : String → Except Error (Option ConfigObject)) (names : List String) :
    Except Error Objects :=
  names.foldlM (fun found name => do
    match ← read name with
    | some o => return found.insert name o
    | none => return found) NameMap.empty

/-- The objects of these names that are there. -/
def readMultiple (fs : Files) (c : Option String) (names : List String) :
    Storage → Except Error Objects
  | null => .ok NameMap.empty
  | memory o => readEach (fun n => read? fs c n (memory o)) names
  | directory dir => readEach (fun n => read? fs c n (directory dir)) names
  | view o => readEach (fun n => read? fs c n (view o)) names
  | merged first second => do
    let others ← readMultiple fs c names second
    return (← readMultiple fs c names first).union others
  | overriding recipe wrapped => do
    let found ← readMultiple fs c names wrapped
    let replaced ← readEach (fun n => read? fs c n recipe) found.names
    return replaced.union found
  | selecting o active => readEach (fun n => read? fs c n (selecting o active)) names
  | within c' s => readMultiple fs (some (c.getD c')) names s

/-- The names of all objects, ascending. -/
def listNames (fs : Files) (c : Option String) : Storage → Except Error (List String)
  | null => .ok []
  | memory o => .ok (Snapshot.collection o (collectionOf c)).names
  | directory dir => listFiles fs dir (collectionOf c)
  | view o => .ok (Snapshot.collection o (collectionOf c)).names
  | merged first second => do
    let ns ← listNames fs c first
    let more ← listNames fs c second
    return NameMap.distinctNames (ns ++ more)
  | overriding _ wrapped => listNames fs c wrapped
  | selecting (some o) _ => .ok (Snapshot.collection o (collectionOf c)).names
  | selecting none active => listNames fs (some (collectionOf c)) active
  | within c' s => listNames fs (some (c.getD c')) s

/-- The names of all objects that start with a text, ascending. -/
def list (fs : Files) (c : Option String) (start : String) (s : Storage) :
    Except Error (List String) := do
  return (← listNames fs c s).filter (Text.hasStart start)

/-- The collections other than the default one that hold objects. -/
def collectionNames (fs : Files) : Storage → Except Error (List String)
  | null => .ok []
  | memory o => .ok (Snapshot.collectionNames o)
  | directory dir => .ok (collectionsIn fs dir)
  | view o => .ok (Snapshot.collectionNames o)
  | merged first second => do
    let ns ← collectionNames fs first
    let more ← collectionNames fs second
    return NameMap.distinctNames (ns ++ more)
  | overriding _ wrapped => collectionNames fs wrapped
  | selecting (some o) _ => .ok (Snapshot.collectionNames o)
  | selecting none active => collectionNames fs active
  | within _ s => collectionNames fs s

/-- All objects of a collection. -/
def objects (fs : Files) (c : Option String) (s : Storage) : Except Error Objects := do
  s.readMultiple fs c (← s.listNames fs c)

/-- Everything in a storage. The default collection is always there, others only with objects. -/
def exportAll (fs : Files) (s : Storage) : Except Error Snapshot := do
  let default ← s.objects fs (some defaultCollection)
  let add (found : Snapshot) (c : String) : Except Error Snapshot := do
    let os ← s.objects fs (some c)
    return if os.isEmpty then found else found.insert c os
  (← s.collectionNames fs).foldlM add (NameMap.empty.insert defaultCollection default)

/-! ### Changing -/

/-- Put an object into a collection of a snapshot. -/
def putObject (s : Snapshot) (c name : String) (o : ConfigObject) : Snapshot :=
  s.insert c ((Snapshot.collection s c).insert name o)

/-- Take an object out of a collection of a snapshot. A collection other than the default one goes
with its last object. -/
def dropObject (s : Snapshot) (c name : String) : Snapshot :=
  match s.get? c with
  | none => s
  | some os =>
    let os := os.erase name
    if c ≠ defaultCollection ∧ os.isEmpty then s.erase c else s.insert c os

/-- Create or replace an object. -/
def write (fs : Files) (c : Option String) (name : String) (o : ConfigObject) :
    Storage → Except Error Unit × Storage × Files
  | memory os => (.ok (), memory (putObject os (collectionOf c) name o), fs)
  | directory dir =>
    let (r, fs) := writeFile fs (filePath dir (collectionOf c) name) o
    (r, directory dir, fs)
  | selecting selected active =>
    let (r, active, fs) := write fs (some (collectionOf c)) name o active
    (r, selecting selected active, fs)
  | within c' s =>
    let (r, s, fs) := write fs (some (c.getD c')) name o s
    (r, within c' s, fs)
  | s => (.error (.readOnlyStorage "write"), s, fs)

/-- Delete an object; the answer says whether it was there. -/
def delete (fs : Files) (c : Option String) (name : String) :
    Storage → Except Error Bool × Storage × Files
  | memory os =>
    (.ok ((Snapshot.collection os (collectionOf c)).contains name),
      memory (dropObject os (collectionOf c) name), fs)
  | directory dir =>
    let (r, fs) := deleteFile fs (filePath dir (collectionOf c) name)
    (r, directory dir, fs)
  | selecting selected active =>
    let (r, active, fs) := delete fs (some (collectionOf c)) name active
    (r, selecting selected active, fs)
  | within c' s =>
    let (r, s, fs) := delete fs (some (c.getD c')) name s
    (r, within c' s, fs)
  | s => (.error (.readOnlyStorage "delete"), s, fs)

/-- Whether a storage refuses to rename or delete several objects before it looks for them. -/
def isCombined : Storage → Bool
  | view _ | merged .. | overriding .. => true
  | within _ s => s.isCombined
  | _ => false

end Storage

end Cookbook
