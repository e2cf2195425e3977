import Cookbook.Proofs.Recipe.WellFormed

/-!
# Going back, after any history

A site starts in memory without checkpoints, and then anything is done to it: objects are written and
deleted, extensions installed and uninstalled, recipes applied, checkpoints made and gone back to,
and the files of recipes change. Much of it may fail half way.

`History` keeps beside the site what its storage exported when each checkpoint was made. Nothing that
is done reads that record; the log has snapshots of its own. The main result compares the two: going
back gives the configuration of the record.

Going back once more then finds nothing to do. The objects agree already, and so do the lists of
installed extensions; for these, objects have to be well-formed, because equality of mappings is not
symmetric otherwise.

## Main definitions

* `Operation`: what can be done to a site.
* `History`: a site with what was exported when its checkpoints were made.
* `History.Sound`: the invariant.

## Main results

* `History.sound_next`: whatever is done keeps the invariant.
* `History.reproduced_of_rollback`: going back gives what the checkpoint had, and doing it again
  changes nothing.
-/

namespace Cookbook

open Change

/-- What can be done to a site. The objects that are written or brought have no key twice. -/
inductive Operation where
  /-- Write an object of a collection. -/
  | write (c : Option String) (name : String) (o : ConfigObject) (ho : o.WellFormed)
  /-- Delete an object of a collection. -/
  | delete (c : Option String) (name : String)
  /-- Install extensions; some objects may replace their default configuration. -/
  | install (names : List String) (overrides : Option Storage)
    (ho : ∀ s ∈ overrides, s.Holds Mapping.WellFormed)
  /-- Uninstall extensions. -/
  | uninstall (names : List String)
  /-- Make a checkpoint. -/
  | checkpoint (label : String)
  /-- Apply the recipe in a directory. -/
  | apply (dir : Path)
  /-- Go back to a checkpoint. -/
  | rollback (id : String)
  /-- Time goes on, and files are changed. -/
  | wait (files : Files) (now : Nat)

/-- Do something to a site. -/
def Operation.perform (a : Application) : Operation → CheckpointM Unit
  | write c name o _ => CheckpointM.active (ConfigM.write c name o)
  | delete c name => do
    let _ ← CheckpointM.active (ConfigM.delete c name)
  | install names overrides _ => CheckpointM.active (a.catalog.install names overrides)
  | uninstall names => CheckpointM.active (a.catalog.uninstall names)
  | checkpoint label => do
    let _ ← CheckpointM.checkpoint label
  | apply dir => do
    let _ ← a.apply dir
  | rollback id => do
    let _ ← CheckpointM.rollback a.catalog id
  | wait files now => modify fun s => { s with workspace := { s.workspace with files, now } }

/-- A site, and what it exported when its checkpoints were made, by their ids. -/
structure History where
  /-- The site. -/
  site : CheckpointStorage
  /-- What was exported. -/
  taken : NameMap Snapshot := NameMap.empty

namespace History

/-- Do something, and record the export for the checkpoints that are new in the log. Checkpoints are
made before anything is changed, so it is the export from before. -/
def next (a : Application) (h : History) (op : Operation) : History :=
  let site := (outcome (op.perform a) h.site).2
  let made := site.log.entries.drop h.site.log.entries.length
  { site, taken := match h.site.workspace.exportAll with
      | .ok s => made.foldl (fun t c => t.insert c.id s) h.taken
      | .error _ => h.taken }

/-- Do one thing after the other. -/
def after (a : Application) (s : CheckpointStorage) (ops : List Operation) : History :=
  ops.foldl (next a) { site := s }

/-- The site is well-formed, and for each checkpoint of its log the snapshot is the export of the
time. -/
def Sound (h : History) : Prop :=
  ∃ snaps, h.site.WellFormed snaps ∧
    (∀ c ∈ h.site.log.entries, h.taken.get? c.id = snaps.get? c.id) ∧
    ∀ id s, h.taken.get? id = some s → ∃ m : Snapshot, s = m.exported

end History

variable {a : Application} {s s' : CheckpointStorage} {snaps : NameMap Snapshot} {m : Snapshot}

/-! ### What one operation does -/

theorem CheckpointStorage.WellFormed.active_of_keeps (hs : s.WellFormed snaps) {α : Type}
    {x : ConfigM α} {R : α → Prop} (hx : Keeps (Workspace.Obeys (.only Mapping.WellFormed)) x R)
    {r : Except Error α} (h : outcome (CheckpointM.active x) s = (r, s')) :
    s'.workspace.Obeys (.only Mapping.WellFormed) ∧ s'.listeners = [] ∧ s'.log = s.log := by
  rw [CheckpointM.outcome_active] at h
  cases h
  exact ⟨(hx s.workspace hs.active).1, hs.quiet, rfl⟩

/-- The state that is left does not depend on whether the result is used. -/
theorem exists_outcome_of_discard {α : Type} {x : CheckpointM α} {r : Except Error Unit}
    (h : outcome (do let _ ← x) s = (r, s')) : ∃ r' : Except Error α, outcome x s = (r', s') := by
  rw [outcome_bind] at h
  split at h
  · rename_i b t hx
    cases h
    exact ⟨.ok b, hx⟩
  · rename_i e t hx
    cases h
    exact ⟨.error e, hx⟩

/-- Whatever is done keeps a site well-formed, and its log gets one checkpoint more at most, of the
configuration from before. -/
theorem Operation.perform_wellFormed (ha : a.Sound) (hs : s.WellFormed snaps)
    (hm : s.workspace.active = .memory m) (op : Operation) {r : Except Error Unit}
    (h : outcome (op.perform a) s = (r, s')) :
    s'.workspace.Obeys (.only Mapping.WellFormed) ∧ s'.listeners = [] ∧
      (s'.log = s.log ∨ ∃ c, s'.log = s.log.With snaps c m.exported) := by
  cases op with
  | write c name o ho =>
    have hput : Guard.only Mapping.WellFormed (Storage.collectionOf c) name (some o) := by
      rintro o' ⟨⟩
      exact ho
    obtain ⟨hactive, hquiet, hlog⟩ := hs.active_of_keeps (ConfigM.keeps_write hput) h
    exact ⟨hactive, hquiet, .inl hlog⟩
  | delete c name =>
    have hdrop : Guard.only Mapping.WellFormed (Storage.collectionOf c) name none := by
      rintro o' ⟨⟩
    obtain ⟨r', h⟩ := exists_outcome_of_discard h
    obtain ⟨hactive, hquiet, hlog⟩ := hs.active_of_keeps (ConfigM.keeps_delete hdrop) h
    exact ⟨hactive, hquiet, .inl hlog⟩
  | install names overrides ho =>
    obtain ⟨hactive, hquiet, hlog⟩ := hs.active_of_keeps
      (Catalog.keeps_install (Guard.wellFormed_allowsInstall _) ha.catalog ho) h
    exact ⟨hactive, hquiet, .inl hlog⟩
  | uninstall names =>
    obtain ⟨hactive, hquiet, hlog⟩ := hs.active_of_keeps
      (Catalog.keeps_uninstall (Guard.wellFormed_allowsUninstall _)) h
    exact ⟨hactive, hquiet, .inl hlog⟩
  | checkpoint label =>
    obtain ⟨r', h⟩ := exists_outcome_of_discard h
    have htaken := CheckpointM.taken_checkpoint hm hs.store label
    rw [h] at htaken
    rw [htaken.workspace_eq, htaken.listeners_eq]
    exact ⟨hs.active, hs.quiet, htaken.log_eq⟩
  | apply dir =>
    obtain ⟨r', h⟩ := exists_outcome_of_discard h
    exact Application.apply_wellFormed ha hs hm h
  | rollback id =>
    obtain ⟨r', h⟩ := exists_outcome_of_discard h
    obtain ⟨hs', hlog⟩ := CheckpointM.rollback_wellFormed ha hs h
    exact ⟨hs'.active, hs'.quiet, .inl hlog⟩
  | wait files now =>
    cases h
    exact ⟨hs.active, hs.quiet, .inl rfl⟩

namespace History

/-! ### Any history -/

/-- A site without checkpoints has a sound history. -/
theorem sound_start (hs : s.WellFormed snaps) (hlog : s.log.entries = []) :
    Sound { site := s } := by
  refine ⟨snaps, hs, fun c hc => ?_, ?_⟩
  · rw [hlog] at hc
    cases hc
  · rintro id t ⟨⟩

/-- Whatever is done, the record and the log stay in step. -/
theorem sound_next (ha : a.Sound) {h : History} (hh : h.Sound) (op : Operation) :
    (h.next a op).Sound := by
  obtain ⟨snaps, hs, htaken, hexports⟩ := hh
  obtain ⟨m, hm, hobeys⟩ := hs.active
  rcases hop : outcome (op.perform a) h.site with ⟨r, site⟩
  obtain ⟨hactive, hquiet, hlog⟩ := op.perform_wellFormed ha hs hm hop
  rw [next, hop, Workspace.exportAll_of_active hm]
  dsimp only
  rcases hlog with hlog | ⟨c, hlog⟩
  · refine ⟨snaps, ⟨hactive, hquiet, hlog ▸ hs.store, hs.saved⟩, ?_⟩
    rw [hlog, List.drop_length]
    exact ⟨htaken, hexports⟩
  · have hmade : site.log.entries.drop h.site.log.entries.length = [c] := by
      rw [hlog]
      exact List.drop_left
    rw [hmade, List.foldl_cons, List.foldl_nil]
    refine ⟨snaps.insert c.id m.exported, ⟨hactive, hquiet, by rw [hlog]; rfl, ?_⟩, ?_, ?_⟩
    · intro id L hL
      rw [NameMap.get?_insert] at hL
      split at hL
      · cases hL
        exact CheckpointStorage.holds_exported hobeys
      · exact hs.saved id L hL
    · intro c' hc'
      rw [NameMap.get?_insert, NameMap.get?_insert]
      split
      · rfl
      · rename_i hne
        rw [hlog] at hc'
        rcases List.mem_append.mp hc' with hc' | hc'
        · exact htaken c' hc'
        · rw [List.mem_singleton.mp hc'] at hne
          exact absurd rfl hne
    · intro id t ht
      rw [NameMap.get?_insert] at ht
      split at ht
      · cases ht
        exact ⟨m, rfl⟩
      · exact hexports id t ht

theorem sound_after (ha : a.Sound) (hs : s.WellFormed snaps) (hlog : s.log.entries = [])
    (ops : List Operation) : (after a s ops).Sound := by
  have hrun : ∀ h : History, h.Sound → (ops.foldl (next a) h).Sound := by
    induction ops with
    | nil => exact fun h hh => hh
    | cons op ops ih => exact fun h hh => ih _ (sound_next ha hh op)
  exact hrun _ (sound_start hs hlog)

/-! ### Going back -/

/-- After a successful return, another one to the same checkpoint does nothing at all. -/
theorem rollback_again (ha : a.Sound) (hs : s.WellFormed snaps) {id : String}
    {summary : ImportSummary}
    (h : outcome (CheckpointM.rollback a.catalog id) s = (.ok summary, s')) :
    outcome (CheckpointM.rollback a.catalog id) s' = (.ok {}, s') := by
  obtain ⟨hs', hlog⟩ := CheckpointM.rollback_wellFormed ha hs h
  obtain ⟨L, i, hL, hi, rfl⟩ := CheckpointM.exists_import_of_rollback h
  obtain ⟨m, hm, hagrees⟩ := ImportM.agrees_of_importFrom
    (Workspace.Obeys.inMemory hs.active) hi
  obtain ⟨m', hm', hobeys⟩ := hs'.active
  cases hm.symm.trans hm'
  -- Both have the list of extensions, well-formed and equal.
  have hlists := ImportM.isSome_of_importFrom hi
  obtain ⟨o, ho⟩ := Option.isSome_iff_exists.mp hlists
  obtain ⟨p, hp⟩ := Option.isSome_iff_exists.mp
    ((hagrees.isSome_eq defaultCollection coreExtension).trans hlists)
  obtain ⟨o', ho', hsame⟩ := hagrees.exists_same hp
  cases ho.symm.trans ho'
  have hinstalled : o.installed = p.installed := by
    refine (ConfigObject.installed_eq_of_same ?_ ?_ hsame).symm
    · exact hobeys defaultCollection coreExtension p hp
    · exact hs.snapshot hL defaultCollection coreExtension o ho
  have hnothing : outcome (ImportM.importFrom a.catalog (.view L))
      { workspace := i.workspace, listeners := i.listeners }
        = (.ok {}, { workspace := i.workspace, listeners := i.listeners }) :=
    ImportM.outcome_importFrom_of_agrees hm hs'.quiet rfl hagrees hlists
      (by rw [ho, hp]; exact hinstalled)
  have hL' : s.log.snapshot i.workspace.files id = .ok L :=
    CheckpointLog.InMemory.snapshot_eq ⟨snaps, hs.store⟩ hL _
  rw [CheckpointM.outcome_rollback]
  dsimp only
  rw [hL']
  dsimp only
  rw [hnothing]

/-- A successful return to a checkpoint gives what the storage exported when the checkpoint was made,
leaves the log as it is, and doing it again changes nothing. -/
theorem reproduced_of_rollback (ha : a.Sound) (hs : s.WellFormed snaps)
    (hempty : s.log.entries = []) (ops : List Operation) {id : String} {summary : ImportSummary}
    (h : outcome (CheckpointM.rollback a.catalog id) (after a s ops).site = (.ok summary, s')) :
    ∃ was now, (after a s ops).taken.get? id = some was ∧ s'.workspace.exportAll = .ok now ∧
      now.same was = true ∧ s'.log = (after a s ops).site.log ∧
      outcome (CheckpointM.rollback a.catalog id) s' = (.ok {}, s') := by
  obtain ⟨snaps', hsite, htaken, hexports⟩ := sound_after ha hs hempty ops
  obtain ⟨L, m, hL, hm, hagrees, hlog⟩ :=
    CheckpointM.agrees_of_rollback (Workspace.Obeys.inMemory hsite.active) h
  obtain ⟨⟨c, hc, rfl⟩, hsnapshot⟩ := (CheckpointLog.snapshot_eq_ok_iff hsite.store).mp hL
  have hwas : (after a s ops).taken.get? c.id = some L := by rw [htaken c hc, hsnapshot]
  obtain ⟨m₀, rfl⟩ := hexports c.id L hwas
  have hsame : m.exported.same m₀.exported = true :=
    (hagrees.trans (Snapshot.agrees_exported m₀)).exported_same
  exact ⟨_, m.exported, hwas, Workspace.exportAll_of_active hm, hsame, hlog,
    rollback_again ha hsite h⟩

/-! ### An instance -/

theorem sound_plainApplication : Application.plainApplication.Sound := by
  refine Application.sound_of_core Application.core_plainApplication ?_
  rintro name x ⟨⟩

theorem wellFormed_plainSite (fs : Files) :
    (Application.plainSite fs).WellFormed NameMap.empty := by
  refine ⟨⟨_, rfl, ?_⟩, rfl, rfl, by simp⟩
  exact Snapshot.obeys_only_of_entries (by decide)

/-- A checkpoint is made, an object is written, and a recipe fails that would change it. -/
def eventful : List Operation :=
  [.checkpoint "first", .write none "core.note" (Mapping.ofNames [("b", .int 2)]) rfl,
    .apply ⟨"/r"⟩]

theorem reproduced_after_eventful : ∃ summary s',
    outcome (CheckpointM.rollback Application.plainApplication.catalog "1")
      (after Application.plainApplication (Application.plainSite Application.failingRecipe)
        eventful).site = (.ok summary, s') ∧ summary.deleted = 1 ∧
      outcome (CheckpointM.rollback Application.plainApplication.catalog "1") s' = (.ok {}, s') := by
  have hgoes : (match (outcome (CheckpointM.rollback Application.plainApplication.catalog "1")
      (after Application.plainApplication (Application.plainSite Application.failingRecipe)
        eventful).site).1 with
      | .ok summary => summary.deleted == 1
      | .error _ => false) = true := by
    decide +kernel
  rcases h : outcome (CheckpointM.rollback Application.plainApplication.catalog "1")
    (after Application.plainApplication (Application.plainSite Application.failingRecipe)
      eventful).site with ⟨e | summary, s'⟩
  · rw [h] at hgoes
    cases hgoes
  · rw [h] at hgoes
    obtain ⟨-, -, -, -, -, -, hagain⟩ := reproduced_of_rollback sound_plainApplication
      (wellFormed_plainSite Application.failingRecipe) rfl eventful h
    exact ⟨summary, s', rfl, beq_iff_eq.mp hgoes, hagain⟩

end History

end Cookbook
