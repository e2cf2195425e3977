import Cookbook.Proofs.Checkpoint.Rollback
import Cookbook.Proofs.Storage.Editing

/-!
# Changes through the checkpoints

Configuration with checkpoints is a storage of its own: it is read as the selected checkpoint, if one
is selected, and changes go to the active configuration. Writing and deleting an object are single
changes, so they are what they are on the active configuration. Renaming and deleting by the start of
a name are put together from reads and changes, and their reads see the checkpoint: what is written
under the new name has the content of the checkpoint, and what is deleted are the names the
checkpoint lists.

So these two differ from the same change of the active configuration as soon as the checkpoint and
the active configuration differ where they look. The main result says exactly when.

## Main definitions

* `CheckpointStorage.AlikeButEmpty`: equal states, where a collection without objects counts as none.

## Main results

* `CheckpointM.outcome_through_of_acts`, `CheckpointM.outcome_active_of_acts`: a change through the
  checkpoints, and of the active configuration.
* `CheckpointM.same_through_iff`: when a change through the checkpoints is the change of the active
  configuration.
-/

namespace Cookbook

open Change

namespace Storage

variable (seen m : Snapshot) (c name newName start : String)

/-- Renaming depends on what is seen under the old name, and on its content unless the old name is
the new one: then the object is deleted. -/
theorem renameObject_eq_iff : renameObject seen m c name newName = renameObject m m c name newName ↔
    (seen.object? c name).isSome = (m.object? c name).isSome ∧
      (name ≠ newName → seen.object? c name = m.object? c name) := by
  rw [renameObject, renameObject]
  cases hseen : seen.object? c name with
  | none => cases hm : m.object? c name <;> simp
  | some o =>
    cases hm : m.object? c name with
    | none => simp
    | some p =>
      simp only [Prod.mk.injEq, true_and, Option.isSome_some]
      constructor
      · intro h hne
        -- under the new name is what was seen under the old one
        have hplace := congrArg (·.object? c newName) h
        simpa [Snapshot.object?_dropObject, Snapshot.object?_putObject, hne] using hplace
      · intro h
        by_cases hname : name = newName
        · rw [hname, dropObject_putObject]
        · rw [Option.some.inj (h hname)]

theorem object?_dropObjects (c' name : String) : (dropObjects seen m c start).object? c' name
    = if c = c' ∧ (seen.object? c name).isSome = true ∧ Text.hasStart start name = true then none
      else m.object? c' name := by
  have hmem : name ∈ (seen.collection c).names.filter (Text.hasStart start) ↔
      (seen.object? c name).isSome = true ∧ Text.hasStart start name = true := by
    rw [List.mem_filter, NameMap.mem_names_iff]
    rfl
  rw [dropObjects, Snapshot.object?_foldl_dropObject]
  simp only [hmem]

/-- Deleting by the start of a name misses the objects that are not seen. -/
theorem object?_dropObjects_eq_iff :
    (∀ c' name, (dropObjects seen m c start).object? c' name
      = (dropObjects m m c start).object? c' name) ↔
      ∀ name, Text.hasStart start name = true → (m.object? c name).isSome = true →
        (seen.object? c name).isSome = true := by
  simp only [object?_dropObjects]
  constructor
  · intro h name hstart hname
    have hplace := h c name
    by_contra hseen
    rw [if_neg (by simp [hseen]), if_pos ⟨rfl, hname, hstart⟩] at hplace
    rw [hplace] at hname
    cases hname
  · intro h c' name
    by_cases hc : c = c'
    · subst hc
      cases hname : m.object? c name with
      | none => simp
      | some o =>
        have := h name
        by_cases hstart : Text.hasStart start name = true <;> simp_all
    · simp [hc]

end Storage

namespace CheckpointStorage

/-- The state with other active configuration, in memory. -/
def holding (s : CheckpointStorage) (m : Snapshot) : CheckpointStorage :=
  { s with workspace := { s.workspace with active := .memory m } }

/-- Two states that differ at most in collections without objects. -/
def AlikeButEmpty (s t : CheckpointStorage) : Prop :=
  ∃ a b, s.workspace.active = .memory a ∧ t = s.holding b ∧
    ∀ c name, a.object? c name = b.object? c name

variable {s : CheckpointStorage} {a b m : Snapshot}

theorem holding_self (h : s.workspace.active = .memory m) : s.holding m = s := by
  rw [holding, ← h]

theorem holding_inj : s.holding a = s.holding b ↔ a = b := by
  refine ⟨fun h => ?_, congrArg s.holding⟩
  injection h with hworkspace
  injection hworkspace with _ hactive
  injection hactive

theorem alikeButEmpty_holding_iff : (s.holding a).AlikeButEmpty (s.holding b) ↔
    ∀ c name, a.object? c name = b.object? c name := by
  constructor
  · rintro ⟨a', b', ha, hb, h⟩
    cases ha
    rw [holding_inj.mp hb]
    exact h
  · intro h
    exact ⟨a, b, rfl, rfl, h⟩

end CheckpointStorage

namespace CheckpointM

variable {s : CheckpointStorage} {m : Snapshot}

/-! ### Through the checkpoints -/

theorem outcome_through {α : Type} (x : ConfigM α) (s : CheckpointStorage) : outcome (through x) s =
    let r := outcome x { s.workspace with active := .selecting s.selected s.workspace.active }
    (r.1, { s with workspace := { r.2 with active := behind r.2.active } }) := by
  rw [through, outcome_bind, outcome_get]
  exact outcome_ofExcept ..

variable {α : Type} {x : ConfigM α} {result : Snapshot → Snapshot → Except Error α × Snapshot}

/-- Through the checkpoints, what is seen is the selected snapshot, if there is one. -/
theorem outcome_through_of_acts (hx : ConfigM.Acts x result) (hm : s.workspace.active = .memory m) :
    outcome (through x) s = ((result (s.selected.getD m) m).1,
      s.holding (result (s.selected.getD m) m).2) := by
  rw [outcome_through, hm, hx (Storage.fronts_selecting s.selected) rfl]
  rfl

/-- In the active configuration, what is seen is what is changed. -/
theorem outcome_active_of_acts (hx : ConfigM.Acts x result) (hm : s.workspace.active = .memory m) :
    outcome (active x) s = ((result m m).1, s.holding (result m m).2) := by
  rw [outcome_active, hx Storage.fronts_memory hm]
  rfl

/-- The checkpoints make no difference to a change if what is seen makes none. -/
theorem outcome_through_eq_active_iff (hx : ConfigM.Acts x result)
    (hm : s.workspace.active = .memory m) : outcome (through x) s = outcome (active x) s ↔
      result (s.selected.getD m) m = result m m := by
  rw [outcome_through_of_acts hx hm, outcome_active_of_acts hx hm, Prod.mk.injEq,
    CheckpointStorage.holding_inj, Prod.ext_iff]

/-- A change through the checkpoints is the same change of the active configuration, with the same
result, if it writes or deletes an object. If it renames one, it is so exactly if reads see the object
as it is, where the content does not matter for a new name that is the old one; and if it deletes all
whose names start with a text, exactly if reads see each of them. -/
theorem same_through_iff (hm : s.workspace.active = .memory m) (c : Option String) :
    let seen := s.selected.getD m
    (∀ name o, outcome (through (ConfigM.write c name o)) s
      = outcome (active (ConfigM.write c name o)) s) ∧
    (∀ name, outcome (through (ConfigM.delete c name)) s
      = outcome (active (ConfigM.delete c name)) s) ∧
    (∀ name newName, outcome (through (ConfigM.rename c name newName)) s
        = outcome (active (ConfigM.rename c name newName)) s ↔
      (seen.object? (Storage.collectionOf c) name).isSome
          = (m.object? (Storage.collectionOf c) name).isSome ∧
        (name ≠ newName → seen.object? (Storage.collectionOf c) name
          = m.object? (Storage.collectionOf c) name)) ∧
    ∀ start, (outcome (through (ConfigM.deleteAll c start)) s).1
        = (outcome (active (ConfigM.deleteAll c start)) s).1 ∧
      ((outcome (through (ConfigM.deleteAll c start)) s).2.AlikeButEmpty
          (outcome (active (ConfigM.deleteAll c start)) s).2 ↔
        ∀ name, Text.hasStart start name = true →
          (m.object? (Storage.collectionOf c) name).isSome = true →
          (seen.object? (Storage.collectionOf c) name).isSome = true) := by
  refine ⟨fun name o => ?_, fun name => ?_, fun name newName => ?_, fun start => ⟨?_, ?_⟩⟩
  · exact (outcome_through_eq_active_iff (ConfigM.acts_write c name o) hm).mpr rfl
  · exact (outcome_through_eq_active_iff (ConfigM.acts_delete c name) hm).mpr rfl
  · rw [outcome_through_eq_active_iff (ConfigM.acts_rename c name newName) hm]
    exact Storage.renameObject_eq_iff ..
  · rw [outcome_through_of_acts (ConfigM.acts_deleteAll c start) hm,
      outcome_active_of_acts (ConfigM.acts_deleteAll c start) hm]
  · rw [outcome_through_of_acts (ConfigM.acts_deleteAll c start) hm,
      outcome_active_of_acts (ConfigM.acts_deleteAll c start) hm,
      CheckpointStorage.alikeButEmpty_holding_iff]
    exact Storage.object?_dropObjects_eq_iff ..

/-- A note that was changed since the checkpoint that reads see, and one that is new. -/
def revised : CheckpointStorage where
  workspace :=
    { files := default
      active := .memory (Snapshot.ofList
        [("", "core.new", Mapping.ofNames []), ("", "core.note", Mapping.ofNames [("a", .int 2)])]) }
  selected := some (Snapshot.ofList [("", "core.note", Mapping.ofNames [("a", .int 1)])])

theorem same_through_revised :
    (∃ m, revised.workspace.active = .memory m) ∧
    outcome (through (ConfigM.write none "core.note" Mapping.empty)) revised
      = outcome (active (ConfigM.write none "core.note" Mapping.empty)) revised ∧
    outcome (through (ConfigM.rename none "core.note" "core.moved")) revised
      ≠ outcome (active (ConfigM.rename none "core.note" "core.moved")) revised ∧
    outcome (through (ConfigM.rename none "core.note" "core.note")) revised
      = outcome (active (ConfigM.rename none "core.note" "core.note")) revised ∧
    ¬(outcome (through (ConfigM.deleteAll none "core.")) revised).2.AlikeButEmpty
      (outcome (active (ConfigM.deleteAll none "core.")) revised).2 := by
  obtain ⟨hwrite, -, hrename, hdeleteAll⟩ := same_through_iff (s := revised) rfl none
  refine ⟨⟨_, rfl⟩, hwrite _ _, fun h => ?_, (hrename _ _).mpr ⟨rfl, absurd rfl⟩, fun h => ?_⟩
  · have hcontent : some (Mapping.ofNames [("a", .int 1)]) = some (Mapping.ofNames [("a", .int 2)]) :=
      ((hrename _ _).mp h).2 (by decide)
    cases hcontent
  · have hseen := (hdeleteAll "core.").2.mp h "core.new" rfl rfl
    revert hseen
    decide

end CheckpointM

end Cookbook
