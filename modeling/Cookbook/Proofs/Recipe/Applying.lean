import Cookbook.Proofs.Action.Core
import Cookbook.Proofs.Checkpoint.Rollback
import Cookbook.Proofs.Recipe.Labels
import Cookbook.Proofs.Recipe.Running

/-!
# Applying a recipe, seen from outside

Whatever a recipe does, applying it ends in one of five ways, and only in two of them has the recipe
been run and failed. `Application.Applied` lists them with everything that is known in each. Nothing
else here looks into `Application.apply`.

The checkpoint that is gone back to has the configuration from before: a new one because it was just
made, an old one because making another was found not to be needed. So a failure that is not one of
going back leaves the configuration as it was. Nothing is assumed of actions except that they leave
configuration in memory where it is.

## Main definitions

* `Application.Applied`: the ways in which applying a recipe ends.

## Main results

* `Application.applied_outcome`: applying a recipe ends in one of these ways.
* `Application.restored_of_apply_error`: a failed application leaves the configuration as it was.
-/

namespace Cookbook

open Change

namespace Application

variable {a : Application} {dir : Path} {s s' : CheckpointStorage}

/-- What going back after a failure gives and leaves. -/
theorem outcome_goBack {α : Type} (a : Application) (id : String) (failure : Error)
    (s : CheckpointStorage) : outcome (a.goBack id failure : CheckpointM α) s =
      match outcome (CheckpointM.rollback a.catalog id) s with
      | (.ok _, s') => (.error failure, s')
      | (.error e, s') => (.error (.rollbackFailed failure id e), s') := by
  rw [goBack]
  have htry := outcome_tryCatch
    (do let _ ← CheckpointM.rollback a.catalog id : CheckpointM PUnit)
    (fun e => throw (.rollbackFailed failure id e)) s
  rcases h : outcome (CheckpointM.rollback a.catalog id) s with ⟨e | summary, s'⟩
  · rw [outcome_bind_error h] at htry
    exact outcome_bind_error htry
  · rw [outcome_bind_ok h] at htry
    exact outcome_bind_ok htry

/-- The label of the checkpoint before a recipe. -/
abbrev backupLabel (s : CheckpointStorage) (t : RecipeTree) : String :=
  s.log.backupLabel t.recipe.name

/-- The ways in which applying the recipe in a directory ends. -/
inductive Applied (a : Application) (dir : Path) (s : CheckpointStorage) :
    Except Error ApplyReport → CheckpointStorage → Prop where
  /-- The recipe could not be loaded. -/
  | notLoaded {e : Error}
    (hload : a.resolve s.workspace.files s.workspace.active dir = .error e) :
    Applied a dir s (.error e) s
  /-- No checkpoint could be made. -/
  | notBackedUp {t : RecipeTree} {e : Error} {s' : CheckpointStorage}
    (hload : a.resolve s.workspace.files s.workspace.active dir = .ok t)
    (hbackup : outcome (CheckpointM.checkpoint (backupLabel s t)) s = (.error e, s')) :
    Applied a dir s (.error e) s'
  /-- The recipe was run. -/
  | done {t : RecipeTree} {b : CheckpointOutcome} {s' : CheckpointStorage} {ids : List String}
    {w : Workspace} (hload : a.resolve s.workspace.files s.workspace.active dir = .ok t)
    (hbackup : outcome (CheckpointM.checkpoint (backupLabel s t)) s = (.ok b, s'))
    (hrun : outcome (a.run t) s'.workspace = (.ok ids, w)) :
    Applied a dir s (.ok { recipe := t.recipe.name, applied := ids, backup := b })
      { s' with workspace := w }
  /-- The recipe failed and was undone. -/
  | undone {t : RecipeTree} {b : CheckpointOutcome} {s' s'' : CheckpointStorage} {f : Error}
    {w : Workspace} {summary : ImportSummary}
    (hload : a.resolve s.workspace.files s.workspace.active dir = .ok t)
    (hbackup : outcome (CheckpointM.checkpoint (backupLabel s t)) s = (.ok b, s'))
    (hrun : outcome (a.run t) s'.workspace = (.error f, w))
    (hundo : outcome (CheckpointM.rollback a.catalog b.checkpoint.id) { s' with workspace := w }
      = (.ok summary, s'')) : Applied a dir s (.error f) s''
  /-- The recipe failed, and so did undoing it. -/
  | stuck {t : RecipeTree} {b : CheckpointOutcome} {s' s'' : CheckpointStorage} {f e : Error}
    {w : Workspace} (hload : a.resolve s.workspace.files s.workspace.active dir = .ok t)
    (hbackup : outcome (CheckpointM.checkpoint (backupLabel s t)) s = (.ok b, s'))
    (hrun : outcome (a.run t) s'.workspace = (.error f, w))
    (hundo : outcome (CheckpointM.rollback a.catalog b.checkpoint.id) { s' with workspace := w }
      = (.error e, s'')) : Applied a dir s (.error (.rollbackFailed f b.checkpoint.id e)) s''

/-- Applying a recipe ends in one of the five ways. -/
theorem applied_outcome (a : Application) (dir : Path) (s : CheckpointStorage) :
    Applied a dir s (outcome (a.apply dir) s).1 (outcome (a.apply dir) s).2 := by
  have hask : outcome (CheckpointM.active (ConfigM.ask fun fs active => a.resolve fs active dir)) s
      = (a.resolve s.workspace.files s.workspace.active dir, s) := by
    rw [CheckpointM.outcome_active, ConfigM.outcome_ask]
  rw [apply, outcome_bind, hask]
  cases hload : a.resolve s.workspace.files s.workspace.active dir with
  | error e => exact .notLoaded hload
  | ok t =>
    dsimp only
    rw [outcome_bind_ok (outcome_get s), outcome_bind]
    rcases hbackup : outcome (CheckpointM.checkpoint (backupLabel s t)) s with ⟨e | b, s'⟩
    · exact .notBackedUp hload hbackup
    · dsimp only
      rw [outcome_bind, outcome_tryCatch, CheckpointM.outcome_active]
      rcases hrun : outcome (a.run t) s'.workspace with ⟨f | ids, w⟩
      · dsimp only
        rw [outcome_goBack]
        rcases hundo : outcome (CheckpointM.rollback a.catalog b.checkpoint.id)
          { s' with workspace := w } with ⟨e | summary, s''⟩
        · exact .stuck hload hbackup hrun hundo
        · exact .undone hload hbackup hrun hundo
      · exact .done hload hbackup hrun

/-- A recipe that can be loaded is applied if there is a checkpoint and the run does not fail. -/
theorem outcome_apply_of_run {t : RecipeTree} {b : CheckpointOutcome} {ids : List String}
    {w : Workspace} (hload : a.resolve s.workspace.files s.workspace.active dir = .ok t)
    (hbackup : outcome (CheckpointM.checkpoint (backupLabel s t)) s = (.ok b, s'))
    (hrun : outcome (a.run t) s'.workspace = (.ok ids, w)) :
    outcome (a.apply dir) s = (.ok { recipe := t.recipe.name, applied := ids, backup := b },
      { s' with workspace := w }) := by
  have hask : outcome (CheckpointM.active (ConfigM.ask fun fs active => a.resolve fs active dir)) s
      = (.ok t, s) := by
    rw [CheckpointM.outcome_active, ConfigM.outcome_ask, hload]
  rw [apply, outcome_bind_ok hask, outcome_bind_ok (outcome_get s), outcome_bind_ok hbackup,
    outcome_bind, outcome_tryCatch, CheckpointM.outcome_active, hrun]
  rfl

/-! ### Undoing -/

/-- Running recipes leaves configuration in memory where it is. -/
theorem keeps_run_inMemory (hactions : a.actions.StaysInMemory) (t : RecipeTree) :
    Keeps Workspace.InMemory (a.run t) fun _ => True := by
  refine keeps_run (Q := fun _ => True) (Guard.free_allowsInstall _) ⟨?_, ?_⟩ ?_
  · exact Catalog.holds_of_forall (fun _ => trivial) _
  · exact fun _ _ _ s _ => Storage.holds_of_forall (fun _ => trivial) s
  · exact fun _ _ i _ => ActionRegistry.keeps_apply fun d hd name _ => hactions d hd _ name i.value

/-- Going back to the checkpoint that was made, or found not to be needed, before a recipe was run
brings back the configuration of that time. -/
theorem agrees_of_undone {m : Snapshot} {snaps : NameMap Snapshot} {b : CheckpointOutcome}
    {s'' : CheckpointStorage} {w : Workspace} {summary : ImportSummary}
    (hlog : s.log.store = .memory snaps) (htaken : CheckpointM.Taken m snaps s (.ok b) s')
    (hw : w.InMemory)
    (hundo : outcome (CheckpointM.rollback a.catalog b.checkpoint.id) { s' with workspace := w }
      = (.ok summary, s'')) :
    ∃ m', s''.workspace.active = .memory m' ∧ m'.Agrees m ∧ s''.log = s'.log := by
  obtain ⟨L, m', hL, hm', hagrees, hlog''⟩ := CheckpointM.agrees_of_rollback hw hundo
  obtain ⟨L', hL', hsame⟩ := htaken.exists_snapshot hlog w.files
  have hLL' : L = L' := Except.ok.inj (hL.symm.trans hL')
  subst hLL'
  have hLm : L.Agrees m := (Snapshot.agrees_of_same hsame).trans (Snapshot.agrees_exported m)
  exact ⟨m', hm', hagrees.trans hLm, hlog''⟩

/-- A failed application that does not fail to go back leaves the configuration as it was before,
and the log with one checkpoint more at most. -/
theorem restored_of_apply_error {e : Error} (hactive : s.workspace.InMemory)
    (hlog : s.log.InMemory) (hactions : a.actions.StaysInMemory)
    (h : outcome (a.apply dir) s = (.error e, s'))
    (he : ∀ failure id rollback, e ≠ .rollbackFailed failure id rollback) :
    ∃ before after, s.workspace.exportAll = .ok before ∧ s'.workspace.exportAll = .ok after ∧
      after.same before = true ∧
      (s'.log = s.log ∨ ∃ snaps c, s.log.store = .memory snaps ∧
        s'.log = s.log.With snaps c before) ∧
      (∀ f, a.resolve s.workspace.files s.workspace.active dir = .error f → s'.log = s.log) := by
  obtain ⟨m, hm⟩ := Workspace.inMemory_iff.mp hactive
  obtain ⟨snaps, hsnaps⟩ := hlog
  have hends := applied_outcome a dir s
  rw [h] at hends
  suffices hleft : ∃ m', s'.workspace.active = .memory m' ∧ m'.Agrees m ∧
      (s'.log = s.log ∨ ∃ c, s'.log = s.log.With snaps c m.exported) ∧
      (∀ f, a.resolve s.workspace.files s.workspace.active dir = .error f → s'.log = s.log) by
    obtain ⟨m', hm', hagrees, hgrown, hnone⟩ := hleft
    refine ⟨m.exported, m'.exported, Workspace.exportAll_of_active hm,
      Workspace.exportAll_of_active hm', hagrees.exported_same, ?_, hnone⟩
    exact hgrown.imp id fun ⟨c, hc⟩ => ⟨snaps, c, hsnaps, hc⟩
  cases hends with
  | notLoaded hload => exact ⟨m, hm, .refl m, .inl rfl, fun _ _ => rfl⟩
  | notBackedUp hload hbackup =>
    rename_i t
    have htaken := CheckpointM.taken_checkpoint hm hsnaps (backupLabel s t)
    rw [hbackup] at htaken
    cases htaken
    exact ⟨m, hm, .refl m, .inl rfl, fun _ _ => rfl⟩
  | undone hload hbackup hrun hundo =>
    rename_i t b s₁ w summary
    have htaken := CheckpointM.taken_checkpoint hm hsnaps (backupLabel s t)
    rw [hbackup] at htaken
    have hs₁ : s₁.workspace.InMemory := by rwa [htaken.workspace_eq]
    have hw : w.InMemory := (keeps_run_inMemory hactions t).state hs₁ hrun
    obtain ⟨m', hm', hagrees, hlog'⟩ := agrees_of_undone hsnaps htaken hw hundo
    refine ⟨m', hm', hagrees, ?_, fun f hf => ?_⟩
    · rw [hlog']
      exact htaken.log_eq
    · rw [hload] at hf
      cases hf
  | stuck => exact absurd rfl (he _ _ _)

/-! ### An instance -/

/-- An application without extensions, with the actions that need no entity types. -/
def plainApplication : Application where
  root := ⟨"/"⟩
  catalog := NameMap.empty
  actions := { entityTypes := NameMap.empty, definitions := plainActions, distinct := by decide }

theorem core_plainApplication : ActionRegistry.core NameMap.empty = .ok plainApplication.actions :=
  rfl

/-- A site in memory with nothing installed. -/
def plainSite (fs : Files) : CheckpointStorage where
  workspace :=
    { files := fs
      active := .memory (Snapshot.ofList [(defaultCollection, coreExtension,
        Mapping.ofNames [("module", .map []), ("theme", .map [])])]) }

theorem inMemory_plainSite (fs : Files) : (plainSite fs).workspace.InMemory :=
  ⟨_, rfl, fun _ _ => trivial⟩

/-- A recipe that brings an object and then updates one that is not there. -/
def failingRecipe : Files where
  tree := .dir [("r", .dir [
    ("config", .dir [("core.note.yml", .file (.text "a: 1"))]),
    ("recipe.yml", .file (.text
      "name: A\nconfig: \x7bactions: \x7bcore.site: \x7bsimple_config_update: \x7b\x7d\x7d\x7d\x7d"))])]

/-- Whether a result is the failure of an action. -/
def isActionFailure {α : Type} : Except Error α → Bool
  | .error (.configAction _) => true
  | _ => false

theorem restored_after_failed_update :
    ∃ e s', outcome (plainApplication.apply ⟨"/r"⟩) (plainSite failingRecipe) = (.error e, s') ∧
      ∃ before after, (plainSite failingRecipe).workspace.exportAll = .ok before ∧
        s'.workspace.exportAll = .ok after ∧ after.same before = true := by
  have hfails : isActionFailure
      (outcome (plainApplication.apply ⟨"/r"⟩) (plainSite failingRecipe)).1 = true := by
    decide +kernel
  rcases h : outcome (plainApplication.apply ⟨"/r"⟩) (plainSite failingRecipe) with ⟨e | r, s'⟩
  · rw [h] at hfails
    obtain ⟨before, after, hbefore, hafter, hsame, -⟩ :=
      restored_of_apply_error (inMemory_plainSite failingRecipe) ⟨_, rfl⟩
        (ActionRegistry.staysInMemory_of_core core_plainApplication) h
        (by rintro _ _ _ rfl; cases hfails)
    exact ⟨e, s', rfl, before, after, hbefore, hafter, hsame⟩
  · rw [h] at hfails
    cases hfails

end Application

end Cookbook
