import Cookbook.Proofs.Checkpoint.Numbering
import Cookbook.Proofs.Checkpoint.Through

/-!
# Sessions with checkpoints

Configuration is changed, checkpoints of it are made, looked at, selected for reading and gone back
to, in any order, and many of these calls may fail. The log and what was selected are shared by all
who make them.

A `Session` keeps beside the configuration which checkpoint is selected, by its id, as the calls say
it: a selection replaces the one before if it succeeds, and going back ends it if that succeeds. The
configuration has a snapshot of its own that reads see. The main result compares the two, and says
what becomes of the log: it is numbered, it only grows, and what it has of a checkpoint stays what was
exported when the checkpoint was made.

## Main definitions

* `Call`: what can be done in a session.
* `CheckpointStorage.Sees`: what reads through the checkpoints give.
* `Session`, `Session.after`: the configuration with the selection, after some calls.
* `Session.Sound`: the invariant.

## Main results

* `Call.done_perform`: what one call does.
* `Session.sound_next`: every call keeps the invariant, and the log grows.
* `Session.faithful_after`: log and reads, after any calls.
-/

namespace Cookbook

open Change

/-- What can be done in a session. -/
inductive Call where
  /-- Change the active configuration, directly or through the checkpoints. -/
  | edit (direct : Bool) (e : Edit)
  /-- Make a checkpoint. -/
  | checkpoint (label : String)
  /-- Go back to a checkpoint. -/
  | rollback (catalog : Catalog) (listeners : List ImportListener) (id : String)
  /-- Look at a checkpoint. -/
  | readAt (id : String)
  /-- Let reads see a checkpoint, or the active configuration again. -/
  | select (id : Option String)
  /-- Time goes on, and files are changed. -/
  | wait (files : Files) (now : Nat)

namespace Call

/-- Make a call. -/
def perform : Call → CheckpointM Unit
  | edit direct e => do
    let _ ← (if direct then CheckpointM.active e.perform else CheckpointM.through e.perform)
  | checkpoint label => do
    let _ ← CheckpointM.checkpoint label
  | rollback catalog listeners id => do
    modify fun s => { s with listeners }
    let _ ← CheckpointM.rollback catalog id
  | readAt id => do
    let _ ← CheckpointM.snapshotOf id
  | select id => CheckpointM.select id
  | wait files now => modify fun s => { s with workspace := { s.workspace with files, now } }

/-- The checkpoint that is selected after a call with some result. -/
def selection (before : Option String) : Call → Except Error Unit → Option String
  | select id, .ok () => id
  | rollback .., .ok () => none
  | _, _ => before

end Call

/-- Reads through the checkpoints see a snapshot, for every collection. -/
structure CheckpointStorage.Sees (s : CheckpointStorage) (m : Snapshot) : Prop where
  holds : ∀ c name, outcome (CheckpointM.through (ConfigM.holds c name)) s
    = (.ok (m.object? (Storage.collectionOf c) name).isSome, s)
  read? : ∀ c name, outcome (CheckpointM.through (ConfigM.read? c name)) s
    = (.ok (m.object? (Storage.collectionOf c) name), s)
  list : ∀ c start, outcome (CheckpointM.through (ConfigM.list c start)) s
    = (.ok ((m.collection (Storage.collectionOf c)).names.filter (Text.hasStart start)), s)
  collectionNames : outcome (CheckpointM.through ConfigM.collectionNames) s
    = (.ok m.collectionNames, s)

/-- Configuration with checkpoints, and the id of the one that is selected. -/
structure Session where
  /-- The configuration. -/
  site : CheckpointStorage
  /-- The checkpoint that is selected. -/
  selection : Option String := none

namespace Session

/-- Make a call. -/
def next (h : Session) (call : Call) : Session :=
  let (r, site) := outcome call.perform h.site
  { site, selection := call.selection h.selection r }

/-- Make one call after the other. -/
def after (h : Session) (calls : List Call) : Session := calls.foldl next h

/-- Configuration and log are in memory, the log is in order, and reads see the snapshot of the
selected checkpoint. -/
structure Sound (h : Session) : Prop where
  active : h.site.workspace.InMemory
  log : h.site.log.InMemory
  ordered : h.site.log.Ordered
  selected : h.selection.mapM (h.site.log.snapshot h.site.workspace.files) = .ok h.site.selected

end Session

variable {s s' : CheckpointStorage} {m : Snapshot} {snaps : NameMap Snapshot}

/-! ### What reads see -/

theorem CheckpointStorage.sees_getD (hm : s.workspace.active = .memory m) :
    s.Sees (s.selected.getD m) := by
  have hread : ∀ {α : Type} (f : Files → Storage → Except Error α),
      outcome (CheckpointM.through (ConfigM.ask f)) s
        = (f s.workspace.files (.selecting s.selected (.memory m)), s) := by
    intro α f
    rw [CheckpointM.outcome_through, ConfigM.outcome_ask, hm]
    exact congrArg (Prod.mk _) (CheckpointStorage.holding_self hm)
  refine ⟨fun c name => ?_, fun c name => ?_, fun c start => ?_, ?_⟩
  · rw [ConfigM.holds, hread]
    cases s.selected <;> rfl
  · rw [ConfigM.read?, hread]
    cases s.selected <;> rfl
  · rw [ConfigM.list, hread]
    cases s.selected <;> rfl
  · rw [ConfigM.collectionNames, hread]
    cases s.selected <;> rfl

/-! ### What one call does -/

namespace Call

/-- What a call does: the active configuration stays in memory, the log gets at most the checkpoint
that comes next, with what is active, and the selection is what it should be. -/
structure Done (m : Snapshot) (snaps : NameMap Snapshot) (s : CheckpointStorage) (call : Call)
    (r : Except Error Unit) (s' : CheckpointStorage) : Prop where
  active : s'.workspace.InMemory
  log : s'.log = s.log ∨ ∃ c, s.log.Continues c ∧ s'.log = s.log.With snaps c m.exported
  selected : ∀ id : Option String, id.mapM (s.log.snapshot s.workspace.files) = .ok s.selected →
    (call.selection id r).mapM (s.log.snapshot s.workspace.files) = .ok s'.selected

theorem outcome_map {α β : Type} (f : α → β) (x : CheckpointM α) (s : CheckpointStorage) :
    outcome (f <$> x) s = ((outcome x s).1.map f, (outcome x s).2) := by
  rw [map_eq_pure_bind, outcome_bind]
  rcases outcome x s with ⟨e | a, s'⟩ <;> rfl

theorem outcome_discard {α : Type} (x : CheckpointM α) (s : CheckpointStorage) :
    outcome (do let _ ← x) s = ((outcome x s).1.map fun _ => (), (outcome x s).2) := by
  rw [← outcome_map, map_eq_pure_bind]

theorem done_edit (hm : s.workspace.active = .memory m) (direct : Bool) (e : Edit) :
    ∃ m', (outcome (edit direct e).perform s).2 = s.holding m' := by
  rw [perform, outcome_discard]
  cases direct with
  | true => exact ⟨_, congrArg Prod.snd (CheckpointM.outcome_active_of_acts e.acts_perform hm)⟩
  | false => exact ⟨_, congrArg Prod.snd (CheckpointM.outcome_through_of_acts e.acts_perform hm)⟩

/-- An import leaves the configuration in memory, whether it succeeds or fails. -/
theorem keeps_importFrom_inMemory (catalog : Catalog) (source : Storage) :
    Keeps (Import.Obeys False .free) (ImportM.importFrom catalog source) fun _ => True := by
  have hfree : Guard.only (fun _ => True) = Guard.free := by
    funext c name oo
    simp [Guard.only, Guard.free]
  rw [← hfree]
  refine ImportM.keeps_importFrom ?_ ?_ (Catalog.holds_of_forall (fun _ => trivial) catalog)
    (Storage.holds_of_forall (fun _ => trivial) source)
  · rw [hfree]
    exact Guard.free_allowsInstall catalog
  · rw [hfree]
    exact Guard.free_allowsUninstall catalog

theorem done_rollback (hm : s.workspace.active = .memory m) (catalog : Catalog)
    (listeners : List ImportListener) (id : String) :
    Done m snaps s (rollback catalog listeners id)
      (outcome (rollback catalog listeners id).perform s).1
      (outcome (rollback catalog listeners id).perform s).2 := by
  have hmemory : s.workspace.InMemory := Workspace.inMemory_iff.mpr ⟨m, hm⟩
  rw [perform, outcome_bind_ok (outcome_modify _ s), outcome_discard, CheckpointM.outcome_rollback]
  dsimp only
  cases hL : s.log.snapshot s.workspace.files id with
  | error e => exact ⟨hmemory, .inl rfl, fun _ h => h⟩
  | ok L =>
    dsimp only
    have hkeeps := (keeps_importFrom_inMemory catalog (.view L)
      { workspace := s.workspace, listeners } ⟨hmemory, False.elim⟩).1.1
    revert hkeeps
    rcases outcome (ImportM.importFrom catalog (.view L))
      { workspace := s.workspace, listeners } with ⟨e | summary, i⟩
    · exact fun hkeeps => ⟨hkeeps, .inl rfl, fun _ h => h⟩
    · exact fun hkeeps => ⟨hkeeps, .inl rfl, fun _ _ => rfl⟩

theorem done_select (hm : s.workspace.active = .memory m) (id : Option String) :
    Done m snaps s (select id) (outcome (select id).perform s).1
      (outcome (select id).perform s).2 := by
  have hmemory : s.workspace.InMemory := Workspace.inMemory_iff.mpr ⟨m, hm⟩
  cases id with
  | none => exact ⟨hmemory, .inl rfl, fun _ _ => rfl⟩
  | some id =>
    have hsnapshot : outcome ((some id).mapM CheckpointM.snapshotOf) s
        = ((s.log.snapshot s.workspace.files id).map some, s) := by
      rw [Option.mapM_some, outcome_map, CheckpointM.outcome_snapshotOf]
    rw [perform, CheckpointM.select, outcome_bind, hsnapshot]
    cases hL : s.log.snapshot s.workspace.files id with
    | error e => exact ⟨hmemory, .inl rfl, fun _ h => h⟩
    | ok L => exact ⟨hmemory, .inl rfl, fun _ _ => congrArg (Except.map some) hL⟩

theorem done_perform (hm : s.workspace.active = .memory m) (hs : s.log.store = .memory snaps)
    (call : Call) :
    Done m snaps s call (outcome call.perform s).1 (outcome call.perform s).2 := by
  have hmemory : s.workspace.InMemory := Workspace.inMemory_iff.mpr ⟨m, hm⟩
  cases call with
  | edit direct e =>
    obtain ⟨m', h⟩ := done_edit hm direct e
    rw [h]
    exact ⟨Workspace.inMemory_iff.mpr ⟨m', rfl⟩, .inl rfl, fun _ h => h⟩
  | checkpoint label =>
    have htaken := CheckpointM.taken_checkpoint hm hs label
    rw [perform, outcome_discard]
    refine ⟨?_, htaken.log_eq_of_continues, fun _ h => ?_⟩
    · rw [htaken.workspace_eq]
      exact hmemory
    · rw [htaken.selected_eq]
      exact h
  | rollback catalog listeners id => exact done_rollback hm catalog listeners id
  | readAt id =>
    rw [perform, outcome_discard, CheckpointM.outcome_snapshotOf]
    exact ⟨hmemory, .inl rfl, fun _ h => h⟩
  | select id => exact done_select hm id
  | wait files now => exact ⟨Workspace.inMemory_iff.mpr ⟨m, hm⟩, .inl rfl, fun _ h => h⟩

end Call

/-- An export is its own export. -/
theorem Snapshot.exported_exported (m : Snapshot) : m.exported.exported = m.exported := by
  refine NameMap.ext_get? fun c => ?_
  rw [get?_exported, collection_exported, get?_exported]

namespace Session

variable {h : Session}

/-! ### Any calls -/

theorem after_append (h : Session) (calls more : List Call) :
    h.after (calls ++ more) = (h.after calls).after more :=
  List.foldl_append

theorem exists_done (hactive : h.site.workspace.InMemory) (hlog : h.site.log.InMemory)
    (call : Call) : ∃ m snaps, h.site.workspace.active = .memory m ∧
      h.site.log.store = .memory snaps ∧
      call.Done m snaps h.site (outcome call.perform h.site).1 (h.next call).site := by
  obtain ⟨m, hm⟩ := Workspace.inMemory_iff.mp hactive
  obtain ⟨snaps, hs⟩ := hlog
  exact ⟨m, snaps, hm, hs, call.done_perform hm hs⟩

/-- Configuration and log stay in memory, whether the log is in order or not. -/
theorem inMemory_next (hactive : h.site.workspace.InMemory) (hlog : h.site.log.InMemory)
    (call : Call) : (h.next call).site.workspace.InMemory ∧ (h.next call).site.log.InMemory := by
  obtain ⟨m, snaps, -, hs, hdone⟩ := exists_done hactive hlog call
  refine ⟨hdone.active, ?_⟩
  rcases hdone.log with heq | ⟨c, -, heq⟩
  · exact heq ▸ hlog
  · exact ⟨_, congrArg CheckpointLog.store heq⟩

theorem inMemory_after (hactive : h.site.workspace.InMemory) (hlog : h.site.log.InMemory)
    (calls : List Call) :
    (h.after calls).site.workspace.InMemory ∧ (h.after calls).site.log.InMemory := by
  induction calls generalizing h with
  | nil => exact ⟨hactive, hlog⟩
  | cons call calls ih =>
    obtain ⟨hactive', hlog'⟩ := inMemory_next hactive hlog call
    exact ih hactive' hlog'

/-- What was selected is found in a log that grew, whatever the files are. -/
theorem selected_of_grows {l l' : CheckpointLog} {fs fs' : Files} {id : Option String}
    {selected : Option Snapshot} (hl' : l'.InMemory) (hgrows : l.Grows l')
    (h : id.mapM (l.snapshot fs) = .ok selected) : id.mapM (l'.snapshot fs') = .ok selected := by
  cases id with
  | none => exact h
  | some id =>
    rw [Option.mapM_some] at h ⊢
    obtain ⟨L, hL, hselected⟩ := Except.bind_eq_ok_iff.mp h
    rw [hl'.snapshot_eq (hgrows.snapshot fs id L hL) fs']
    exact hselected

/-- Every call keeps a session sound, and its log grows. -/
theorem sound_next (hh : h.Sound) (call : Call) :
    (h.next call).Sound ∧ h.site.log.Grows (h.next call).site.log := by
  obtain ⟨m, snaps, -, hs, hdone⟩ := exists_done hh.active hh.log call
  suffices hlog : (h.next call).site.log.InMemory ∧ (h.next call).site.log.Ordered ∧
      h.site.log.Grows (h.next call).site.log by
    obtain ⟨hmemory, hordered, hgrows⟩ := hlog
    exact ⟨⟨hdone.active, hmemory, hordered,
      selected_of_grows hmemory hgrows (hdone.selected _ hh.selected)⟩, hgrows⟩
  rcases hdone.log with heq | ⟨c, hc, heq⟩
  · rw [heq]
    exact ⟨hh.log, hh.ordered, .refl _⟩
  · rw [heq]
    exact ⟨⟨_, rfl⟩, hh.ordered.continued hc, hh.ordered.grows hs hc⟩

theorem sound_after (hh : h.Sound) (calls : List Call) :
    (h.after calls).Sound ∧ h.site.log.Grows (h.after calls).site.log := by
  induction calls generalizing h with
  | nil => exact ⟨hh, .refl _⟩
  | cons call calls ih =>
    obtain ⟨hnext, hgrows⟩ := sound_next hh call
    obtain ⟨hafter, hgrows'⟩ := ih hnext
    exact ⟨hafter, hgrows.trans hgrows'⟩

/-- The log gets at most one checkpoint by a call, with what the configuration exported before. -/
theorem recorded_next (hh : h.Sound) (call : Call) :
    (h.next call).site.log.entries = h.site.log.entries ∨
      ∃ c L, (h.next call).site.log.entries = h.site.log.entries ++ [c] ∧
        (∀ fs, (h.next call).site.log.snapshot fs c.id = .ok L) ∧
        ∀ fs, (Storage.view L).exportAll fs = h.site.workspace.exportAll := by
  obtain ⟨m, snaps, hm, -, hdone⟩ := exists_done hh.active hh.log call
  refine hdone.log.imp (congrArg _) ?_
  rintro ⟨c, -, heq⟩
  refine ⟨c, m.exported, by rw [heq]; rfl, fun fs => ?_, fun fs => ?_⟩
  · rw [heq]
    exact CheckpointLog.snapshot_with ..
  · rw [(Storage.Shows.view _).exportAll, Snapshot.exported_exported,
      Workspace.exportAll_of_active hm]

/-- Reads see the selected checkpoint, or the active configuration. -/
theorem exists_sees (hh : h.Sound) : ∃ L, h.site.Sees L ∧ match h.selection with
    | some id => outcome (CheckpointM.snapshotOf id) h.site = (.ok L, h.site)
    | none => h.site.workspace.active = .memory L := by
  obtain ⟨m, hm⟩ := Workspace.inMemory_iff.mp hh.active
  refine ⟨h.site.selected.getD m, CheckpointStorage.sees_getD hm, ?_⟩
  have hselected := hh.selected
  cases hid : h.selection with
  | none =>
    rw [hid] at hselected
    rw [← Except.ok.inj hselected, hm]
    rfl
  | some id =>
    rw [hid, Option.mapM_some] at hselected
    obtain ⟨L, hL, hsome⟩ := Except.bind_eq_ok_iff.mp hselected
    dsimp only
    rw [CheckpointM.outcome_snapshotOf, hL, ← Except.ok.inj hsome]
    rfl

/-- In a session that starts without checkpoints, the log is numbered; it only grows, by one
checkpoint at most with each call, and what is found under its id later on is what the configuration
exported before that call. Reads see the checkpoint that is selected, as it is found in the log, and
the active configuration if none is selected. -/
theorem faithful_after (hm : s.workspace.active = .memory m) (hlog : s.log = {})
    (hselected : s.selected = none) (calls : List Call) :
    let h := after { site := s } calls
    h.site.log.Ordered ∧
    (∀ before call rest, calls = before ++ call :: rest →
      let was := after { site := s } before
      let now := was.next call
      now.site.log.entries <+: h.site.log.entries ∧
      (now.site.log.entries = was.site.log.entries ∨
        ∃ c L, now.site.log.entries = was.site.log.entries ++ [c] ∧
          outcome (CheckpointM.snapshotOf c.id) h.site = (.ok L, h.site) ∧
          ∀ fs, (Storage.view L).exportAll fs = was.site.workspace.exportAll)) ∧
    ∃ L, h.site.Sees L ∧ match h.selection with
      | some id => outcome (CheckpointM.snapshotOf id) h.site = (.ok L, h.site)
      | none => h.site.workspace.active = .memory L := by
  have hstart : Sound { site := s } := by
    refine ⟨Workspace.inMemory_iff.mpr ⟨m, hm⟩, ?_, ?_, ?_⟩
    · exact ⟨_, congrArg CheckpointLog.store hlog⟩
    · exact hlog ▸ CheckpointLog.ordered_empty
    · exact congrArg Except.ok hselected.symm
  obtain ⟨hsound, -⟩ := sound_after hstart calls
  refine ⟨hsound.ordered, ?_, exists_sees hsound⟩
  rintro before call rest rfl
  obtain ⟨hbefore, -⟩ := sound_after hstart before
  obtain ⟨hnow, -⟩ := sound_next hbefore call
  obtain ⟨-, hgrows⟩ := sound_after hnow rest
  have hsplit : after { site := s } (before ++ call :: rest)
      = ((after { site := s } before).next call).after rest :=
    after_append ..
  rw [hsplit]
  refine ⟨hgrows.entries, (recorded_next hbefore call).imp_right ?_⟩
  rintro ⟨c, L, hentries, hL, hexport⟩
  refine ⟨c, L, hentries, ?_, hexport⟩
  rw [CheckpointM.outcome_snapshotOf, hgrows.snapshot _ _ _ (hL _)]

/-! ### An instance -/

/-- An object with a number. -/
def numbered (n : Int) : ConfigObject := Mapping.ofNames [("a", .int n)]

/-- A site with a note. -/
def noted : CheckpointStorage where
  workspace :=
    { files := default, active := .memory (Snapshot.ofList [("", "core.note", numbered 1)]) }

/-- Two checkpoints are made and the first is selected. Then the note is changed through the
checkpoints, and going back and another selection fail. -/
def noting : List Call :=
  [.checkpoint "first", .edit true (.write none "core.note" (numbered 2)), .checkpoint "second",
    .select (some "1"), .edit false (.write none "core.note" (numbered 3)),
    .rollback NameMap.empty [] "2", .select (some "7")]

theorem faithful_noting :
    (after { site := noted } noting).site.log.entries.map (·.id) = ["1", "2"] ∧
    ∃ L, (after { site := noted } noting).site.Sees L ∧
      outcome (CheckpointM.snapshotOf "1") (after { site := noted } noting).site
        = (.ok L, (after { site := noted } noting).site) := by
  have hlength : (after { site := noted } noting).site.log.entries.length = 2 := by
    decide +kernel
  have hselection : (after { site := noted } noting).selection = some "1" := by
    decide +kernel
  obtain ⟨hordered, -, L, hsees, hL⟩ := faithful_after (s := noted) rfl rfl rfl noting
  refine ⟨?_, L, hsees, ?_⟩
  · rw [hordered.ids, hlength]
    rfl
  · rwa [hselection] at hL

end Session

end Cookbook
