import Cookbook.Proofs.Storage.Editing

/-!
# Renaming an object

An object is renamed in three steps. It is read, written under the new name, and deleted under the
old one. The steps are in this order so that there is no moment at which the object is nowhere: if
writing fails, the object is still in its old place.

The order does not ask whether the two names differ. For an object that is renamed to its own name
the second step changes nothing and the third takes the object out, so renaming it is deleting it.
An object that was under the new name already is replaced. Apart from these two cases nothing is
lost.

## Main results

* `Storage.object?_renamed`: what is at each place afterwards.
* `Storage.renamed_self`: renaming to the own name is deleting.
* `ConfigM.renames_in_memory`: what renaming does to configuration in memory.
-/

namespace Cookbook

open Change

namespace Storage

variable {m : Snapshot} {c name newName : String} {o : ConfigObject}

/-- What is at each place after an object was put under the new name and taken out under the old. -/
theorem object?_renamed (m : Snapshot) (c name newName : String) (o : ConfigObject)
    (c' name' : String) : (dropObject (putObject m c newName o) c name).object? c' name'
      = if c = c' ∧ name = name' then none
        else if c = c' ∧ newName = name' then some o else m.object? c' name' := by
  rw [Snapshot.object?_dropObject, Snapshot.object?_putObject]

/-- Under its own name nothing is left of it. -/
theorem renamed_self (h : m.object? c name = some o) :
    dropObject (putObject m c name o) c name = dropObject m c name := by
  rw [Snapshot.putObject_object? h]

theorem renameObject_of_some (h : m.object? c name = some o) :
    renameObject m m c name newName = (.ok (), dropObject (putObject m c newName o) c name) := by
  rw [renameObject, h]

theorem renameObject_of_none (h : m.object? c name = none) : renameObject m m c name newName
    = (.error (.config name "cannot rename an object that does not exist"), m) := by
  rw [renameObject, h]

end Storage

namespace ConfigM

variable {w : Workspace} {m : Snapshot}

theorem outcome_rename (hm : w.active = .memory m) (c : Option String) (name newName : String) :
    outcome (rename c name newName) w
      = ((Storage.renameObject m m (Storage.collectionOf c) name newName).1,
        { w with active :=
          .memory (Storage.renameObject m m (Storage.collectionOf c) name newName).2 }) :=
  acts_rename c name newName Storage.fronts_memory hm

/-- **What renaming does to configuration in memory.** Without an object it fails and changes
nothing. Otherwise it succeeds. The object is then under its new name, if that is another one, and
there is none under the old name, so an object that is renamed to its own name is deleted. All other
places, in this collection and in others, have what they had. -/
theorem renames_in_memory (hm : w.active = .memory m) (c : Option String) (name newName : String) :
    (m.object? (Storage.collectionOf c) name = none →
      outcome (rename c name newName) w
        = (.error (.config name "cannot rename an object that does not exist"), w)) ∧
    ∀ o, m.object? (Storage.collectionOf c) name = some o →
      ∃ m', outcome (rename c name newName) w = (.ok (), { w with active := .memory m' }) ∧
        (newName ≠ name → m'.object? (Storage.collectionOf c) newName = some o) ∧
        m'.object? (Storage.collectionOf c) name = none ∧
        (newName = name → m' = Storage.dropObject m (Storage.collectionOf c) name) ∧
        ∀ c' name', (c' = Storage.collectionOf c → name' ≠ name ∧ name' ≠ newName) →
          m'.object? c' name' = m.object? c' name' := by
  constructor
  · intro hnone
    rw [outcome_rename hm, Storage.renameObject_of_none hnone, ← hm]
  · intro o ho
    have houtcome := outcome_rename hm c name newName
    rw [Storage.renameObject_of_some ho] at houtcome
    refine ⟨_, houtcome, fun hne => ?_, ?_, ?_, fun c' name' hother => ?_⟩
    · rw [Storage.object?_renamed, if_neg fun h => hne h.2.symm, if_pos ⟨rfl, rfl⟩]
    · rw [Storage.object?_renamed, if_pos ⟨rfl, rfl⟩]
    · rintro rfl
      exact Storage.renamed_self ho
    · rw [Storage.object?_renamed, if_neg fun h => (hother h.1.symm).1 h.2.symm,
        if_neg fun h => (hother h.1.symm).2 h.2.symm]

/-- An object on its own. -/
def loneNote : Snapshot :=
  .ofList [(defaultCollection, "core.note", Mapping.ofNames [("a", .int 1)])]

/-- A site with that object. -/
def loneNoteSite : Workspace where
  files := {}
  active := .memory loneNote

/-- It can be renamed, but not to the name it has. -/
theorem renames_loneNote :
    (∃ m', outcome (rename none "core.note" "core.moved") loneNoteSite
        = (.ok (), { loneNoteSite with active := .memory m' }) ∧
      m'.object? defaultCollection "core.moved" = some (Mapping.ofNames [("a", .int 1)])) ∧
    ∃ m', outcome (rename none "core.note" "core.note") loneNoteSite
        = (.ok (), { loneNoteSite with active := .memory m' }) ∧
      m'.object? defaultCollection "core.note" = none := by
  have ho : loneNote.object? defaultCollection "core.note"
      = some (Mapping.ofNames [("a", .int 1)]) := rfl
  constructor
  · obtain ⟨m', houtcome, hmoved, -⟩ :=
      (renames_in_memory (w := loneNoteSite) rfl none "core.note" "core.moved").2 _ ho
    exact ⟨m', houtcome, hmoved (by decide)⟩
  · obtain ⟨m', houtcome, -, hnone, -⟩ :=
      (renames_in_memory (w := loneNoteSite) rfl none "core.note" "core.note").2 _ ho
    exact ⟨m', houtcome, hnone⟩

end ConfigM

end Cookbook
