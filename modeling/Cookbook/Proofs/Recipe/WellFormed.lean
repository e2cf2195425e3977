import Cookbook.Proofs.Action.WellFormed
import Cookbook.Proofs.Checkpoint.Rollback
import Cookbook.Proofs.Recipe.Applying
import Cookbook.Proofs.Recipe.Tree

/-!
# A configuration stays well-formed

Objects get into the configuration by being read from files, copied from the default configuration
of extensions or from a checkpoint, and made by actions. If extensions and actions bring no object
that has a key twice, no such object ever gets in, whatever is done and wherever it fails.

## Main definitions

* `Application.Sound`: what extensions and actions bring is well-formed.
* `CheckpointStorage.WellFormed`: a site with nothing else.

## Main results

* `Application.sound_of_core`: the actions that every site has are no obstacle.
* `Application.keeps_run_wellFormed`: running recipes keeps a configuration well-formed.
* `CheckpointM.rollback_wellFormed`, `Application.apply_wellFormed`: so do going back and applying a
  recipe, which also leave the log as it was or with one checkpoint more.
-/

namespace Cookbook

open Change

/-- What extensions and actions bring has no key twice. -/
structure Application.Sound (a : Application) : Prop where
  /-- The default configuration of all extensions is well-formed. -/
  catalog : a.catalog.Holds Mapping.WellFormed
  /-- Actions that are applied with well-formed values keep a configuration in memory well-formed.
  -/
  actions : ∀ d ∈ a.actions.definitions, ∀ types name v, v.isWellFormed = true →
    Keeps (Workspace.Obeys (.only Mapping.WellFormed)) (d.apply types name v) fun _ => True

namespace Guard

theorem wellFormed_allowsInstall (catalog : Catalog) :
    (Guard.only Mapping.WellFormed).AllowsInstall Mapping.WellFormed catalog where
  bring := by
    rintro c name o - ho o' ⟨⟩
    exact ho
  record := by
    rintro name x - oo hoo o ⟨⟩
    refine Catalog.isWellFormed_listed ?_
    cases oo with
    | none => rfl
    | some o => exact hoo o rfl

theorem wellFormed_allowsUninstall (catalog : Catalog) :
    (Guard.only Mapping.WellFormed).AllowsUninstall catalog where
  drop := by
    rintro c name - o ⟨⟩
  record := by
    rintro name x - oo hoo o ⟨⟩
    refine Catalog.isWellFormed_listed ?_
    cases oo with
    | none => rfl
    | some o => exact hoo o rfl

end Guard

namespace Application

variable {a : Application} {dir : Path}

/-- An application with the actions that every site has, if its extensions are sound. -/
theorem sound_of_core {types : EntityTypes} (hactions : ActionRegistry.core types = .ok a.actions)
    (hcatalog : a.catalog.Holds Mapping.WellFormed) : a.Sound where
  catalog := hcatalog
  actions := by
    intro d hd types name v hv
    refine ActionRegistry.actsOn_of_core hactions hd (Actions.closed_isWellFormed hv) _ types name
      (fun _ hoo => hoo) ?_
    rintro o ho o' ⟨⟩
    exact ho

/-- Running the recipes of a tree keeps a configuration in memory well-formed. -/
theorem keeps_run_wellFormed (ha : a.Sound) {fs : Files} {active : Storage} {t : RecipeTree}
    (hload : a.resolve fs active dir = .ok t) :
    Keeps (Workspace.Obeys (.only Mapping.WellFormed)) (a.run t) fun _ => True := by
  refine keeps_run (Guard.wellFormed_allowsInstall _) ⟨ha.catalog, ?_⟩ ?_
  · intro r _ fs s hs
    exact RecipeConfig.holds_storage (fun _ _ => ConfigObject.isWellFormed_decode) ha.catalog hs
  · intro r hr i hi
    obtain ⟨dir, hr⟩ := exists_load_of_executionOrder hload hr
    exact ActionRegistry.keeps_apply fun d hd name _ =>
      ha.actions d hd _ name i.value (isWellFormed_of_load hr i hi)

end Application

/-- A site in memory, with the snapshots of its log, where nothing has a key twice and nobody
listens. -/
structure CheckpointStorage.WellFormed (snaps : NameMap Snapshot) (s : CheckpointStorage) :
    Prop where
  /-- The active configuration is in memory and well-formed. -/
  active : s.workspace.Obeys (.only Mapping.WellFormed)
  /-- Nobody listens. -/
  quiet : s.listeners = []
  /-- The log is in memory. -/
  store : s.log.store = .memory snaps
  /-- Its snapshots are well-formed. -/
  saved : ∀ id L, snaps.get? id = some L → L.Holds Mapping.WellFormed

namespace CheckpointStorage

variable {a : Application} {s s' : CheckpointStorage} {snaps : NameMap Snapshot} {m : Snapshot}

theorem WellFormed.snapshot (h : s.WellFormed snaps) {fs : Files} {id : String} {L : Snapshot}
    (hL : s.log.snapshot fs id = .ok L) : L.Holds Mapping.WellFormed :=
  h.saved id L ((CheckpointLog.snapshot_eq_ok_iff h.store).mp hL).2

/-- A well-formed configuration has a well-formed export. -/
theorem holds_exported (hm : m.Obeys (.only Mapping.WellFormed)) :
    m.exported.Holds Mapping.WellFormed := by
  intro c name o ho
  rw [Snapshot.object?_exported] at ho
  exact hm c name o ho

/-- A site is well-formed if its configuration is and its log has one checkpoint more at most. -/
theorem WellFormed.of_log (h : s.WellFormed snaps) (hm : s.workspace.active = .memory m)
    (hactive : s'.workspace.Obeys (.only Mapping.WellFormed)) (hquiet : s'.listeners = [])
    (hlog : s'.log = s.log ∨ ∃ c, s'.log = s.log.With snaps c m.exported) :
    ∃ snaps', s'.WellFormed snaps' := by
  rcases hlog with hlog | ⟨c, hlog⟩
  · exact ⟨snaps, hactive, hquiet, hlog ▸ h.store, h.saved⟩
  · refine ⟨snaps.insert c.id m.exported, hactive, hquiet, by rw [hlog]; rfl, ?_⟩
    intro id L hL
    rw [NameMap.get?_insert] at hL
    split at hL
    · cases hL
      obtain ⟨m', hm', hobeys⟩ := h.active
      cases hm.symm.trans hm'
      exact holds_exported hobeys
    · exact h.saved id L hL

end CheckpointStorage

namespace CheckpointM

variable {a : Application} {s s' : CheckpointStorage} {snaps : NameMap Snapshot}

/-- Going back keeps a site well-formed and its log as it is, whether or not it succeeds. -/
theorem rollback_wellFormed (ha : a.Sound) (hs : s.WellFormed snaps) {id : String}
    {r : Except Error ImportSummary} (h : outcome (rollback a.catalog id) s = (r, s')) :
    s'.WellFormed snaps ∧ s'.log = s.log := by
  rw [outcome_rollback] at h
  cases hL : s.log.snapshot s.workspace.files id with
  | error e =>
    rw [hL] at h
    cases h
    exact ⟨hs, rfl⟩
  | ok L =>
    have hkeeps : Keeps (Import.Obeys True (.only Mapping.WellFormed))
        (ImportM.importFrom a.catalog (.view L)) fun _ => True :=
      ImportM.keeps_importFrom (Guard.wellFormed_allowsInstall a.catalog)
        (Guard.wellFormed_allowsUninstall a.catalog) ha.catalog (hs.snapshot hL)
    rw [hL] at h
    rcases hi : outcome (ImportM.importFrom a.catalog (.view L))
      { workspace := s.workspace, listeners := s.listeners } with ⟨e | summary, i⟩
    all_goals
      have hafter := hkeeps.state ⟨hs.active, fun _ => hs.quiet⟩ hi
      simp only [hi] at h
      cases h
      exact ⟨⟨hafter.1, hafter.2 trivial, hs.store, hs.saved⟩, rfl⟩

end CheckpointM

/-- Applying a recipe keeps a site well-formed, and its log gets one checkpoint more at most, of the
configuration from before. -/
theorem Application.apply_wellFormed {a : Application} {s s' : CheckpointStorage}
    {snaps : NameMap Snapshot} {m : Snapshot} (ha : a.Sound) (hs : s.WellFormed snaps)
    (hm : s.workspace.active = .memory m) {dir : Path} {r : Except Error ApplyReport}
    (h : outcome (a.apply dir) s = (r, s')) :
    s'.workspace.Obeys (.only Mapping.WellFormed) ∧ s'.listeners = [] ∧
      (s'.log = s.log ∨ ∃ c, s'.log = s.log.With snaps c m.exported) := by
  have hends := applied_outcome a dir s
  rw [h] at hends
  have htaken : ∀ {label : String} {b : Except Error CheckpointOutcome} {s₁ : CheckpointStorage},
      outcome (CheckpointM.checkpoint label) s = (b, s₁) → CheckpointM.Taken m snaps s b s₁ := by
    intro label b s₁ hb
    have := CheckpointM.taken_checkpoint hm hs.store label
    rwa [hb] at this
  -- After the checkpoint the site is well-formed, and it stays so while the recipe is run.
  have hrunning : ∀ {t : RecipeTree} {b : CheckpointOutcome} {s₁ : CheckpointStorage}
      {x : Except Error (List String)} {w : Workspace},
      a.resolve s.workspace.files s.workspace.active dir = .ok t →
      CheckpointM.Taken m snaps s (.ok b) s₁ → outcome (a.run t) s₁.workspace = (x, w) →
      ∃ snaps', CheckpointStorage.WellFormed snaps' { s₁ with workspace := w } := by
    intro t b s₁ x w hload hb hrun
    have hw : w.Obeys (.only Mapping.WellFormed) := by
      refine (keeps_run_wellFormed ha hload).state ?_ hrun
      rw [hb.workspace_eq]
      exact hs.active
    exact hs.of_log hm hw (hb.listeners_eq.trans hs.quiet) hb.log_eq
  cases hends with
  | notLoaded hload => exact ⟨hs.active, hs.quiet, .inl rfl⟩
  | notBackedUp hload hbackup =>
    have hb := htaken hbackup
    rw [hb.workspace_eq, hb.listeners_eq]
    exact ⟨hs.active, hs.quiet, hb.log_eq⟩
  | done hload hbackup hrun =>
    obtain ⟨snaps', hw⟩ := hrunning hload (htaken hbackup) hrun
    exact ⟨hw.active, hw.quiet, (htaken hbackup).log_eq⟩
  | undone hload hbackup hrun hundo =>
    obtain ⟨snaps', hw⟩ := hrunning hload (htaken hbackup) hrun
    obtain ⟨hs', hlog⟩ := CheckpointM.rollback_wellFormed ha hw hundo
    rw [hlog]
    exact ⟨hs'.active, hs'.quiet, (htaken hbackup).log_eq⟩
  | stuck hload hbackup hrun hundo =>
    obtain ⟨snaps', hw⟩ := hrunning hload (htaken hbackup) hrun
    obtain ⟨hs', hlog⟩ := CheckpointM.rollback_wellFormed ha hw hundo
    rw [hlog]
    exact ⟨hs'.active, hs'.quiet, (htaken hbackup).log_eq⟩

end Cookbook
