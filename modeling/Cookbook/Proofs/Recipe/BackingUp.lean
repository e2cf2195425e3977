import Cookbook.Proofs.Checkpoint.Failing
import Cookbook.Proofs.Recipe.Applying
import Cookbook.Proofs.Recipe.Failing
import Cookbook.Site

/-!
# The checkpoint before a recipe is never refused for its label

Before a recipe is run a checkpoint is asked for, with a label that is free in the log. Between the
choice of the label and the checkpoint the configuration is exported and compared with the latest
checkpoint, and neither changes the log. So the label is still free, and the one failure that is due
to a label cannot come from there. Loading a recipe and running it have nothing to do with labels,
apart from checks and actions that are not those of the library and may fail in any way.

## Main definitions

* `Error.IsNoClash`: not the failure that a label is in use.

## Main results

* `CheckpointM.failsAs_checkpoint`: how asking for a checkpoint with a free label fails.
* `Application.exists_run_of_clash`: only a run can fail because a label is in use.
* `Application.backupLabel_suffices`: the label that is chosen, and what it is good for.
-/

namespace Cookbook

open Change

/-- Not the failure that a label is in use. -/
def Error.IsNoClash (e : Error) : Prop := ∀ label, e ≠ .checkpointExists label

theorem Error.IsPlain.isNoClash {e : Error} (h : e.IsPlain) : e.IsNoClash := by
  rintro label rfl
  exact h

theorem Error.IsOfLoading.isNoClash {e : Error} (h : e.IsOfLoading) : e.IsNoClash := by
  rcases h with rfl | h
  · rintro label ⟨⟩
  · exact h.isNoClash

/-! ### Adding a checkpoint -/

/-- Adding a checkpoint with a free label does not fail because of the label. -/
theorem CheckpointLog.failsAs_append {l : CheckpointLog} {label : String}
    (hlabel : l.hasLabel label = false) (fs : Files) (now : Nat) (s : Snapshot) :
    Except.FailsAs Error.IsNoClash (l.append fs now label s).1 := by
  by_cases hnumber : l.HasNumber
  · exact (failsAs_append_of_new hlabel hnumber).mono fun _ he => he.isNoClash
  · rw [(Refuses.exhausted hlabel hnumber).append_eq]
    exact Except.FailsAs.error fun _ h => by cases h

namespace CheckpointM

variable {s : CheckpointStorage} {label : String}

/-- Nothing that is done before a checkpoint is added changes the log, so a label stays free. -/
theorem failsAs_checkpoint (hlabel : s.log.hasLabel label = false) :
    Except.FailsAs Error.IsNoClash (outcome (checkpoint label) s).1 := by
  have hadd : ∀ snapshot, Except.FailsAs Error.IsNoClash
      (outcome (do return CheckpointOutcome.created (← append label snapshot)) s).1 := by
    intro snapshot
    have happend : Except.FailsAs Error.IsNoClash (outcome (append label snapshot) s).1 := by
      rw [outcome_append]
      exact CheckpointLog.failsAs_append hlabel _ _ snapshot
    rw [outcome_bind]
    rcases h : outcome (append label snapshot) s with ⟨e | c, s'⟩
    · rw [h] at happend
      exact Except.FailsAs.error (happend e rfl)
    · exact Except.FailsAs.ok _
  have hexport : outcome (active ConfigM.exportAll) s
      = (s.workspace.active.exportAll s.workspace.files, s) := by
    rw [outcome_active, ConfigM.exportAll, ConfigM.outcome_ask]
  rw [checkpoint, outcome_bind, hexport]
  cases hsnapshot : s.workspace.active.exportAll s.workspace.files with
  | error e => exact Except.FailsAs.error (Storage.failsAs_exportAll _ e hsnapshot).isNoClash
  | ok snapshot =>
    dsimp only
    rw [outcome_bind_ok (outcome_get s)]
    cases s.log.latest? with
    | none => exact hadd snapshot
    | some latest =>
      dsimp only
      rw [outcome_bind, outcome_snapshotOf]
      cases hlatest : s.log.snapshot s.workspace.files latest.id with
      | error e => exact Except.FailsAs.error (CheckpointLog.failsAs_snapshot _ _ e hlatest).isNoClash
      | ok L =>
        dsimp only
        split
        · exact Except.FailsAs.ok _
        · exact hadd snapshot

end CheckpointM

/-! ### Applying a recipe -/

namespace Application

variable {a : Application} {dir : Path} {s s' : CheckpointStorage} {label : String}

/-- If applying a recipe fails because a label is in use, the checkpoint had been made and it is the
run that failed so. -/
theorem exists_run_of_clash (h : outcome (a.apply dir) s = (.error (.checkpointExists label), s')) :
    ∃ t b s₁ w, a.resolve s.workspace.files s.workspace.active dir = .ok t ∧
      outcome (CheckpointM.checkpoint (backupLabel s t)) s = (.ok b, s₁) ∧
      outcome (a.run t) s₁.workspace = (.error (.checkpointExists label), w) := by
  have hends := applied_outcome a dir s
  rw [h] at hends
  cases hends with
  | notLoaded hload => exact absurd rfl ((isOfLoading_of_resolve hload).isNoClash label)
  | notBackedUp hload hbackup =>
    rename_i t
    have hfails := CheckpointM.failsAs_checkpoint
      (CheckpointLog.hasLabel_backupLabel s.log t.recipe.name)
    rw [hbackup] at hfails
    exact absurd rfl (hfails _ rfl label)
  | undone hload hbackup hrun => exact ⟨_, _, _, _, hload, hbackup, hrun⟩

theorem apply_ne_clash (h : a.PartsFailAs Error.IsNoClash) (dir : Path) (s : CheckpointStorage)
    (label : String) : (outcome (a.apply dir) s).1 ≠ .error (.checkpointExists label) := by
  intro hclash
  obtain ⟨t, _, s₁, w, -, -, hrun⟩ := exists_run_of_clash (Prod.ext hclash rfl)
  have hfails := failsAs_run_of_parts (fun _ he => he.isNoClash) h t s₁.workspace
  rw [hrun] at hfails
  exact hfails _ rfl label rfl

theorem partsFailAs_of_ofParts {root : Path} {catalog : Catalog} {schemas : Schemas}
    {w : Workspace} {log : CheckpointLog} {site : Site}
    (h : Site.ofParts root catalog schemas w log = .ok site) :
    site.app.PartsFailAs Error.IsNoClash := by
  obtain ⟨actions, hactions, h⟩ := Except.bind_eq_ok_iff.mp h
  cases h
  refine partsFailAs_of_core (fun _ he => he.isNoClash) hactions fun name o => ?_
  exact (schemas.failsAs_violations .own name o).mono fun _ he => he.isNoClash

/-- The label before a recipe is free, without a number or with the smallest that is, and it is
found after no more numbers than there are checkpoints, the last of which is at most one more than
that. So applying a recipe does not fail because a label is in use: only the run of it could, through
a check or an action that fails in this way itself, and the sites of the library have none. -/
theorem backupLabel_suffices :
    (∀ (l : CheckpointLog) (recipe : String), l.IsBackupLabel recipe (l.backupLabel recipe)) ∧
    (∀ (a : Application) (dir : Path) (s s' : CheckpointStorage) (label : String),
      outcome (a.apply dir) s = (.error (.checkpointExists label), s') →
        ∃ t b s₁ w, a.resolve s.workspace.files s.workspace.active dir = .ok t ∧
          outcome (CheckpointM.checkpoint (backupLabel s t)) s = (.ok b, s₁) ∧
          outcome (a.run t) s₁.workspace = (.error (.checkpointExists label), w)) ∧
    (∀ a : Application, a.PartsFailAs Error.IsNoClash → ∀ dir s label,
      (outcome (a.apply dir) s).1 ≠ .error (.checkpointExists label)) ∧
    ∀ root catalog schemas w log site, Site.ofParts root catalog schemas w log = .ok site →
      ∀ dir s label, (outcome (site.app.apply dir) s).1 ≠ .error (.checkpointExists label) :=
  ⟨CheckpointLog.isBackupLabel_backupLabel, fun _ _ _ _ _ => exists_run_of_clash,
    fun _ => apply_ne_clash,
    fun _ _ _ _ _ _ hsite => apply_ne_clash (partsFailAs_of_ofParts hsite)⟩

/-! ### An instance -/

/-- A site whose log has the label for a recipe, and the labels with 2 and 4. -/
def labelledSite : CheckpointStorage where
  workspace := (plainSite failingRecipe).workspace
  log :=
    { entries := [⟨"1", "Backup before the 'A' recipe.", 0, none⟩,
        ⟨"2", "Backup before the 'A' recipe. (4)", 0, some "1"⟩,
        ⟨"3", "Backup before the 'A' recipe. (2)", 0, some "2"⟩]
      store := .memory (NameMap.ofList [("3", NameMap.empty)]) }

/-- The checkpoint gets the label with 3, and the recipe fails for a reason of its own. -/
theorem backedUp_with_third_label :
    labelledSite.log.Tries (CheckpointLog.backupBase "A") 2 2
      "Backup before the 'A' recipe. (3)" ∧
    (outcome (plainApplication.apply ⟨"/r"⟩) labelledSite).2.log.latest?.map (·.label)
      = some "Backup before the 'A' recipe. (3)" ∧
    ∃ e s', outcome (plainApplication.apply ⟨"/r"⟩) labelledSite = (.error e, s') ∧
      ∀ label, e ≠ .checkpointExists label := by
  obtain ⟨hchosen, -, hnever, -⟩ := backupLabel_suffices
  have hlabel : labelledSite.log.backupLabel "A" = "Backup before the 'A' recipe. (3)" := by
    decide +kernel
  have hparts : plainApplication.PartsFailAs Error.IsNoClash :=
    partsFailAs_of_core (fun _ he => he.isNoClash) core_plainApplication fun name o =>
      (Schemas.failsAs_violations .own [] name o).mono fun _ he => he.isNoClash
  refine ⟨?_, by decide +kernel, ?_⟩
  · obtain ⟨tried, -, htries, hnumber, -⟩ :=
      (hchosen labelledSite.log "A").numbered (by decide +kernel)
    rw [hlabel] at htries hnumber
    have hthird : CheckpointLog.numberedLabel (CheckpointLog.backupBase "A") 3
        = "Backup before the 'A' recipe. (3)" := by
      decide +kernel
    have htried : 3 = tried + 1 := CheckpointLog.numberedLabel_inj.mp (hthird.trans hnumber)
    cases Nat.succ.inj htried
    exact htries
  · have hfails : (outcome (plainApplication.apply ⟨"/r"⟩) labelledSite).1.isOk = false := by
      decide +kernel
    rcases h : outcome (plainApplication.apply ⟨"/r"⟩) labelledSite with ⟨e | r, s'⟩
    · refine ⟨e, s', rfl, fun label he => ?_⟩
      refine hnever plainApplication hparts ⟨"/r"⟩ labelledSite label ?_
      rw [h, he]
    · rw [h] at hfails
      cases hfails

end Application

end Cookbook
