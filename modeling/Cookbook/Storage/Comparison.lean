import Cookbook.Storage.DependencyOrder

/-!
# Comparing storages

What has to be created, updated and deleted to make one storage hold what another holds.

## Main definitions

* `ChangeList`: the changes in one collection.
* `Objects.changesTo`: the changes between two collections.
* `Storage.changesTo`: the changes of all collections that have some.
* `Storage.hasChanges`: whether storages differ.
-/

namespace Cookbook

/-- Objects to create, to update and to delete in one collection. -/
structure ChangeList where
  /-- Objects to create, each after those it needs. -/
  create : List String := []
  /-- Objects to update, in name order. -/
  update : List String := []
  /-- Objects to delete, each before those it needs. -/
  delete : List String := []
  deriving DecidableEq, Repr

/-- Whether there is nothing to change. -/
def ChangeList.isEmpty (l : ChangeList) : Bool :=
  l.create.isEmpty && l.update.isEmpty && l.delete.isEmpty

/-- The changes that turn the objects of a target into those of a source. -/
def Objects.changesTo (source target : Objects) : ChangeList where
  create := Objects.dependencyOrder (source.filter (fun e => !target.contains e.1))
  update := (source.filter (fun e => (target.get? e.1).any (fun o => !o.same e.2))).names
  delete := (Objects.dependencyOrder (target.filter (fun e => !source.contains e.1))).reverse

namespace Storage

/-- The changes of one collection that turn a target into a source. -/
def collectionChanges (fs : Files) (source target : Storage) (c : String) :
    Except Error ChangeList := do
  let sourceNames ← source.listNames fs (some c)
  let targetNames ← target.listNames fs (some c)
  let sourceObjects ← source.readMultiple fs (some c) sourceNames
  let targetObjects ← target.readMultiple fs (some c) targetNames
  return Objects.changesTo sourceObjects targetObjects

/-- The changes that turn a target into a source, for the collections that have some. -/
def changesTo (fs : Files) (source target : Storage) : Except Error (NameMap ChangeList) := do
  let sourceNames ← source.collectionNames fs
  let targetNames ← target.collectionNames fs
  let names := NameMap.distinctNames (defaultCollection :: sourceNames ++ targetNames)
  let changes ← names.mapM fun c => return (c, ← collectionChanges fs source target c)
  return NameMap.ofList (changes.filter (fun e => !e.2.isEmpty))

/-- Whether some collection has changes. -/
def hasChanges (changes : NameMap ChangeList) : Bool := changes.values.any (fun l => !l.isEmpty)

end Storage

end Cookbook
