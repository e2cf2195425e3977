import Cookbook.Proofs.Workspace

/-!
# Changing the objects of a collection

There are four changes of the objects in a collection. An object is written or deleted in one step;
renaming and deleting by the start of a name are put together from reads and such steps. Where reads
see another snapshot than the one that is changed, the two kinds come apart: a write or a deletion
does not look, and the other two act on what is seen.

So what the changes do is stated once, for storages that take changes to one snapshot and are read as
another. A storage in memory is the case where both are the same.

## Main definitions

* `Storage.Fronts`: reads see one snapshot while changes go to another.
* `ConfigM.Acts`: what a change does to such storages.
* `Edit`: a change of the objects of a collection.

## Main results

* `ConfigM.acts_rename`, `ConfigM.acts_deleteAll`: the changes that are put together.
* `Edit.acts_perform`: every change does what `Edit.result` says.
-/

namespace Cookbook

open Change

namespace Storage

/-- Storages made from a snapshot that take all changes to it, while what is read is seen in a
snapshot that may be another one. -/
structure Fronts (front : Snapshot → Storage) (seen : Snapshot → Snapshot) : Prop where
  write : ∀ fs c name o m, (front m).write fs c name o
    = (.ok (), front (putObject m (collectionOf c) name o), fs)
  delete : ∀ fs c name m, (front m).delete fs c name
    = (.ok ((m.collection (collectionOf c)).contains name),
        front (dropObject m (collectionOf c) name), fs)
  read? : ∀ fs c name m, (front m).read? fs c name = .ok ((seen m).object? (collectionOf c) name)
  listNames : ∀ fs c m, (front m).listNames fs c = .ok ((seen m).collection (collectionOf c)).names
  isCombined : ∀ m, (front m).isCombined = false

theorem fronts_memory : Fronts memory id where
  write _ _ _ _ _ := rfl
  delete _ _ _ _ := rfl
  read? _ _ _ _ := rfl
  listNames _ _ _ := rfl
  isCombined _ := rfl

theorem fronts_selecting (selected : Option Snapshot) :
    Fronts (fun m => selecting selected (memory m)) fun m => selected.getD m where
  write _ _ _ _ _ := rfl
  delete _ _ _ _ := rfl
  read? _ _ _ _ := by cases selected <;> rfl
  listNames _ _ _ := by cases selected <;> rfl
  isCombined _ := rfl

/-- An object gets a new name with the content that is seen; without an object nothing happens. -/
def renameObject (seen m : Snapshot) (c name newName : String) : Except Error Unit × Snapshot :=
  match seen.object? c name with
  | none => (.error (.config name "cannot rename an object that does not exist"), m)
  | some o => (.ok (), dropObject (putObject m c newName o) c name)

/-- The objects are taken out whose names are seen and start with a text. -/
def dropObjects (seen m : Snapshot) (c start : String) : Snapshot :=
  ((seen.collection c).names.filter (Text.hasStart start)).foldl (dropObject · c) m

/-- What an object had as content makes no difference once it is deleted. -/
theorem dropObject_putObject (m : Snapshot) (c name : String) (o p : ConfigObject) :
    dropObject (putObject m c name o) c name = dropObject (putObject m c name p) c name := by
  have hobjects : ((Snapshot.collection m c).insert name o).erase name
      = ((Snapshot.collection m c).insert name p).erase name := by
    refine NameMap.ext_get? fun k => ?_
    simp only [NameMap.get?_erase, NameMap.get?_insert]
    split <;> rfl
  simp only [dropObject, putObject, NameMap.get?_insert_self, hobjects]
  refine NameMap.ext_get? fun k => ?_
  split
  · simp only [NameMap.get?_erase, NameMap.get?_insert]
    split <;> rfl
  · simp only [NameMap.get?_insert]
    split <;> rfl

end Storage

namespace ConfigM

/-- What a change does to storages that take changes to one snapshot and are read as another: what
it gives and leaves is known from the two. -/
def Acts {α : Type} (x : ConfigM α) (result : Snapshot → Snapshot → Except Error α × Snapshot) :
    Prop :=
  ∀ ⦃front seen⦄, Storage.Fronts front seen → ∀ ⦃w : Workspace⦄ ⦃m⦄, w.active = front m →
    outcome x w = ((result (seen m) m).1, { w with active := front (result (seen m) m).2 })

theorem acts_write (c : Option String) (name : String) (o : ConfigObject) :
    Acts (write c name o) fun _ m =>
      (.ok (), Storage.putObject m (Storage.collectionOf c) name o) := by
  intro front seen h w m hw
  rw [write, outcome_bind, outcome_get]
  simp only [hw, h.write, outcome_bind, outcome_set, outcome_ofExcept]

theorem acts_delete (c : Option String) (name : String) :
    Acts (delete c name) fun _ m => (.ok ((m.collection (Storage.collectionOf c)).contains name),
      Storage.dropObject m (Storage.collectionOf c) name) := by
  intro front seen h w m hw
  rw [delete, outcome_bind, outcome_get]
  simp only [hw, h.delete, outcome_bind, outcome_set, outcome_ofExcept]

theorem acts_rename (c : Option String) (name newName : String) :
    Acts (rename c name newName) fun seen m =>
      Storage.renameObject seen m (Storage.collectionOf c) name newName := by
  intro front seen h w m hw
  have hread : outcome (read? c name) w
      = (.ok ((seen m).object? (Storage.collectionOf c) name), w) := by
    rw [read?, outcome_ask, hw, h.read?]
  rw [rename, outcome_bind_ok (outcome_get w), hw, h.isCombined]
  simp only [Bool.false_eq_true, if_false]
  rw [outcome_bind_ok hread, Storage.renameObject]
  cases (seen m).object? (Storage.collectionOf c) name with
  | none =>
    rw [← hw]
    rfl
  | some o =>
    dsimp only
    rw [outcome_bind_ok (acts_write c newName o h hw), outcome_bind_ok (acts_delete c name h rfl)]
    rfl

theorem acts_forM_delete (c : Option String) (names : List String) :
    Acts (names.forM fun name => do let _ ← delete c name) fun _ m =>
      (.ok (), names.foldl (Storage.dropObject · (Storage.collectionOf c)) m) := by
  intro front seen h w m hw
  induction names generalizing w m with
  | nil =>
    dsimp only
    rw [List.foldl_nil, ← hw]
    rfl
  | cons name names ih =>
    have hfirst : outcome (do let _ ← delete c name) w = (.ok (),
        { w with active := front (Storage.dropObject m (Storage.collectionOf c) name) }) := by
      rw [outcome_bind_ok (acts_delete c name h hw)]
      rfl
    exact (outcome_bind_ok hfirst).trans (ih rfl)

theorem acts_deleteAll (c : Option String) (start : String) :
    Acts (deleteAll c start) fun seen m =>
      (.ok (), Storage.dropObjects seen m (Storage.collectionOf c) start) := by
  intro front seen h w m hw
  have hlist : outcome (list c start) w = (.ok (((seen m).collection
      (Storage.collectionOf c)).names.filter (Text.hasStart start)), w) := by
    rw [list, outcome_ask, Storage.list, hw, h.listNames]
    rfl
  rw [deleteAll, outcome_bind_ok (outcome_get w), hw, h.isCombined]
  simp only [Bool.false_eq_true, if_false]
  rw [outcome_bind_ok hlist, acts_forM_delete c _ h hw]
  rfl

end ConfigM

/-- A change of the objects of a collection. -/
inductive Edit where
  /-- Create or replace an object. -/
  | write (c : Option String) (name : String) (o : ConfigObject)
  /-- Delete an object. -/
  | delete (c : Option String) (name : String)
  /-- Give an object a new name. -/
  | rename (c : Option String) (name newName : String)
  /-- Delete the objects whose names start with a text. -/
  | deleteAll (c : Option String) (start : String)

namespace Edit

/-- Make a change. A deletion answers whether the object was there. -/
def perform : Edit → ConfigM (Option Bool)
  | write c name o => do
    ConfigM.write c name o
    return none
  | delete c name => do
    let found ← ConfigM.delete c name
    return some found
  | rename c name newName => do
    ConfigM.rename c name newName
    return none
  | deleteAll c start => do
    ConfigM.deleteAll c start
    return none

/-- What a change gives and what it leaves of a snapshot, when reads see a snapshot. -/
def result (e : Edit) (seen m : Snapshot) : Except Error (Option Bool) × Snapshot :=
  match e with
  | write c name o => (.ok none, Storage.putObject m (Storage.collectionOf c) name o)
  | delete c name => (.ok (some ((m.collection (Storage.collectionOf c)).contains name)),
      Storage.dropObject m (Storage.collectionOf c) name)
  | rename c name newName =>
    let r := Storage.renameObject seen m (Storage.collectionOf c) name newName
    (r.1.map fun _ => none, r.2)
  | deleteAll c start => (.ok none, Storage.dropObjects seen m (Storage.collectionOf c) start)

theorem acts_perform (e : Edit) : ConfigM.Acts e.perform e.result := by
  intro front seen h w m hw
  cases e with
  | write c name o =>
    rw [perform, outcome_bind_ok (ConfigM.acts_write c name o h hw)]
    rfl
  | delete c name =>
    rw [perform, outcome_bind_ok (ConfigM.acts_delete c name h hw)]
    rfl
  | rename c name newName =>
    rw [perform, outcome_bind, ConfigM.acts_rename c name newName h hw, result]
    dsimp only
    rcases Storage.renameObject (seen m) m (Storage.collectionOf c) name newName with ⟨r, m'⟩
    cases r <;> rfl
  | deleteAll c start =>
    rw [perform, outcome_bind_ok (ConfigM.acts_deleteAll c start h hw)]
    rfl

end Edit

end Cookbook
