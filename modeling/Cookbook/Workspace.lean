import Cookbook.Storage.Basic

/-!
# Changing configuration

A workspace is what changing configuration acts on: the files, the active storage, how many ids for
new entities have been given out, and the time. A change may fail, and what was changed before the
failure stays changed.

## Main definitions

* `Workspace`: files, active storage, given ids and the time.
* `ConfigM`: changes of a workspace that may fail.
* `ConfigM.write`, `delete`, `rename`, `deleteAll`: changes of the active storage.
* `ConfigM.newUuid`: a fresh id.
-/

namespace Cookbook

/-- What changes of configuration act on. -/
structure Workspace where
  /-- The files. -/
  files : Files
  /-- The storage of the active configuration. -/
  active : Storage
  /-- The number that the next id for an entity is made from. -/
  nextUuid : Nat := 0
  /-- The time, in seconds. -/
  now : Nat := 0
  deriving Inhabited

/-- A change of a workspace that may fail. Changes made before the failure stay. -/
abbrev ConfigM := ExceptT Error (StateM Workspace)

namespace Workspace

/-- The text of an id made from a number: 32 hexadecimal digits in five groups, two of which are
fixed to mark an id as freely chosen. -/
def uuidText (n : Nat) : String :=
  let ds := Nat.toDigits 16 (n % Nat.pow 2 120)
  let ds := List.replicate (30 - ds.length) '0' ++ ds
  let part (i k : Nat) : String := String.ofList ((ds.drop i).take k)
  part 0 8 ++ "-" ++ part 8 4 ++ "-4" ++ part 12 3 ++ "-8" ++ part 15 3 ++ "-" ++ part 18 12

/-- Everything in the active storage. -/
def exportAll (w : Workspace) : Except Error Snapshot := w.active.exportAll w.files

end Workspace

namespace ConfigM

/-! ### Reading the active storage -/

/-- A question to the active storage. -/
def ask {α : Type} (f : Files → Storage → Except Error α) : ConfigM α := do
  let w ← get
  MonadExcept.ofExcept (f w.files w.active)

/-- Whether there is an object of this name. -/
def holds (c : Option String) (name : String) : ConfigM Bool := ask fun fs s => s.holds fs c name

/-- The object of this name. -/
def read? (c : Option String) (name : String) : ConfigM (Option ConfigObject) :=
  ask fun fs s => s.read? fs c name

/-- The names of all objects that start with a text. -/
def list (c : Option String) (start : String) : ConfigM (List String) :=
  ask fun fs s => s.list fs c start

/-- All objects of a collection. -/
def objects (c : Option String) : ConfigM Objects := ask fun fs s => s.objects fs c

/-- The collections other than the default one that hold objects. -/
def collectionNames : ConfigM (List String) := ask fun fs s => s.collectionNames fs

/-- Everything in the active storage. -/
def exportAll : ConfigM Snapshot := ask fun fs s => s.exportAll fs

/-! ### Changing the active storage -/

/-- Create or replace an object. -/
def write (c : Option String) (name : String) (o : ConfigObject) : ConfigM Unit := do
  let w ← get
  let (r, active, files) := w.active.write w.files c name o
  set { w with active, files }
  MonadExcept.ofExcept r

/-- Delete an object; the answer says whether it was there. -/
def delete (c : Option String) (name : String) : ConfigM Bool := do
  let w ← get
  let (r, active, files) := w.active.delete w.files c name
  set { w with active, files }
  MonadExcept.ofExcept r

/-- Give an object a new name. -/
def rename (c : Option String) (name newName : String) : ConfigM Unit := do
  if (← get).active.isCombined then throw (.readOnlyStorage "rename")
  match ← read? c name with
  | none => throw (.config name "cannot rename an object that does not exist")
  | some o =>
    write c newName o
    let _ ← delete c name

/-- Delete the objects whose names start with a text. -/
def deleteAll (c : Option String) (start : String) : ConfigM Unit := do
  if (← get).active.isCombined then throw (.readOnlyStorage "delete_all")
  (← list c start).forM fun name => do
    let _ ← delete c name

/-! ### Ids -/

/-- A fresh id for an entity. -/
def newUuid : ConfigM String := do
  let w ← get
  set { w with nextUuid := w.nextUuid + 1 }
  return Workspace.uuidText w.nextUuid

end ConfigM

end Cookbook
