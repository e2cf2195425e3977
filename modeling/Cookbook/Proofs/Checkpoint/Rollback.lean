import Cookbook.Checkpoint.Storage
import Cookbook.Proofs.Import
import Cookbook.Proofs.Storage.Failing

/-!
# Checkpoints in memory

With the configuration and the log in memory, asking for a checkpoint has three outcomes and going
back has two. They are stated here once, so that what is built from them need not look inside.

A log finds a checkpoint by its id and its snapshot under that id. The first entry of an id counts,
and a snapshot replaces an earlier one of the same id. So the snapshot that was saved last is found
under its id whatever ids the log had before, and no assumption about ids is made.

## Main definitions

* `CheckpointLog.InMemory`: the snapshots of a log are in memory.
* `CheckpointLog.With`: a log with a checkpoint added.
* `CheckpointLog.HasNumber`, `CheckpointLog.newId`: whether there is an id for another checkpoint,
  and which.
* `CheckpointLog.Refuses`: why a checkpoint is refused at once.
* `CheckpointLog.Continues`: what a checkpoint has to be to come next in a log.
* `CheckpointM.Taken`: the outcomes of asking for a checkpoint.

## Main results

* `CheckpointM.taken_checkpoint`: what asking for a checkpoint gives and leaves.
* `CheckpointM.agrees_of_rollback`: a successful return gives agreement with the checkpoint.
-/

namespace Cookbook

open Change

namespace CheckpointLog

variable {l : CheckpointLog} {snaps : NameMap Snapshot} {fs : Files}

/-- The snapshots of a log are in memory. -/
def InMemory (l : CheckpointLog) : Prop := ∃ snaps, l.store = .memory snaps

/-- A log in memory with a checkpoint and its snapshot added. -/
def With (l : CheckpointLog) (snaps : NameMap Snapshot) (c : Checkpoint) (s : Snapshot) :
    CheckpointLog :=
  { entries := l.entries ++ [c], store := .memory (snaps.insert c.id s) }

/-- There is a number for another checkpoint. -/
def HasNumber (l : CheckpointLog) : Prop := l.highest + 1 < Nat.pow 2 64

/-- The number for another checkpoint, as an id. -/
def newId (l : CheckpointLog) : String := toString (l.highest + 1)

theorem nextId_of_hasNumber {l : CheckpointLog} (h : l.HasNumber) : l.nextId = .ok l.newId :=
  if_pos h

theorem nextId_of_exhausted {l : CheckpointLog} (h : ¬ l.HasNumber) :
    l.nextId = .error .idsExhausted :=
  if_neg h

theorem nextId_eq_ok_iff {l : CheckpointLog} {id : String} :
    l.nextId = .ok id ↔ l.HasNumber ∧ id = l.newId := by
  by_cases h : l.HasNumber
  · rw [nextId_of_hasNumber h, Except.ok.injEq, eq_comm, and_iff_right h]
  · rw [nextId_of_exhausted h]
    exact iff_of_false (fun heq => by cases heq) fun hid => h hid.1

/-- A checkpoint is refused before anything is written: its label is in use, or there is no number
for it. -/
inductive Refuses (l : CheckpointLog) (label : String) : Error → Prop where
  | inUse (hlabel : l.hasLabel label = true) : Refuses l label (.checkpointExists label)
  | exhausted (hlabel : l.hasLabel label = false) (hnumber : ¬ l.HasNumber) :
    Refuses l label .idsExhausted

theorem refuses_or_new (l : CheckpointLog) (label : String) :
    (∃ e, l.Refuses label e) ∨ (l.hasLabel label = false ∧ l.HasNumber) := by
  cases hlabel : l.hasLabel label with
  | true => exact .inl ⟨_, .inUse hlabel⟩
  | false =>
    by_cases hnumber : l.HasNumber
    · exact .inr ⟨rfl, hnumber⟩
    · exact .inl ⟨_, .exhausted hlabel hnumber⟩

theorem Refuses.append_eq {label : String} {e : Error} (h : l.Refuses label e) (fs : Files)
    (now : Nat) (s : Snapshot) : l.append fs now label s = (.error e, l, fs) := by
  cases h with
  | inUse hlabel => rw [append, hlabel, if_pos rfl]
  | exhausted hlabel hnumber =>
    rw [append, hlabel, if_neg Bool.false_ne_true, nextId_of_exhausted hnumber]

/-- A checkpoint that can come next in a log. -/
structure Continues (l : CheckpointLog) (c : Checkpoint) : Prop where
  id : l.nextId = .ok c.id
  label : l.hasLabel c.label = false
  parent : c.parent = l.latest?.map (·.id)

theorem get_eq_ok {id : String} {c : Checkpoint} (h : l.get id = .ok c) :
    c ∈ l.entries ∧ c.id = id := by
  rw [get] at h
  split at h
  · rename_i hfind
    cases h
    exact ⟨List.mem_of_find?_eq_some hfind, by simpa using List.find?_some hfind⟩
  · cases h

/-- What a log in memory has for an id. -/
theorem snapshot_eq_ok_iff (hl : l.store = .memory snaps) {id : String} {s : Snapshot} :
    l.snapshot fs id = .ok s ↔ (∃ c ∈ l.entries, c.id = id) ∧ snaps.get? id = some s := by
  rw [snapshot]
  cases hentries : l.entries with
  | nil => simp [throw, throwThe, MonadExceptOf.throw, bind, Except.bind]
  | cons c rest =>
    rw [← hentries]
    have hne : l.entries.isEmpty = false := by rw [hentries]; rfl
    rw [hne]
    cases hget : l.get id with
    | error e =>
      have hnone : ∀ c ∈ l.entries, c.id ≠ id := by
        intro c hc hid
        rw [get] at hget
        split at hget
        · cases hget
        · rename_i hfind
          exact List.find?_eq_none.mp hfind c hc (by simpa using hid)
      constructor
      · intro h
        cases h
      · rintro ⟨⟨c, hc, hid⟩, -⟩
        exact absurd hid (hnone c hc)
    | ok d =>
      obtain ⟨hd, hid⟩ := get_eq_ok hget
      rw [hl, and_iff_right ⟨d, hd, hid⟩, ← hid]
      cases ht : snaps.get? d.id with
      | none => simp [ht, throw, throwThe, MonadExceptOf.throw, bind, Except.bind]
      | some t => simp [ht, pure, Except.pure, bind, Except.bind]

/-- Looking for a snapshot fails as reading does. -/
theorem failsAs_snapshot (l : CheckpointLog) (id : String) :
    Except.FailsAs Error.IsPlain (l.snapshot fs id) := by
  have hdecode : ∀ t, Except.FailsAs Error.IsPlain (Snapshot.decode t) := by
    intro t
    rw [Snapshot.decode]
    split
    · exact Except.FailsAs.ok _
    · exact Except.FailsAs.error trivial
  have hget : Except.FailsAs Error.IsPlain (l.get id) := by
    rw [get]
    split
    · exact Except.FailsAs.ok _
    · exact Except.FailsAs.error trivial
  rw [snapshot]
  split
  · exact Except.FailsAs.error trivial
  · refine hget.bind fun c => ?_
    split
    · split
      · exact Except.FailsAs.ok _
      · exact Except.FailsAs.error trivial
    · split
      · exact Except.FailsAs.error trivial
      · exact hdecode _

/-- A log in memory does not read files. -/
theorem InMemory.snapshot_eq (hl : l.InMemory) {id : String} {s : Snapshot}
    (h : l.snapshot fs id = .ok s) (fs' : Files) : l.snapshot fs' id = .ok s := by
  obtain ⟨snaps, hl⟩ := hl
  exact (snapshot_eq_ok_iff hl).mpr ((snapshot_eq_ok_iff hl).mp h)

/-- The checkpoint that was added is found under its id. -/
theorem snapshot_with (l : CheckpointLog) (snaps : NameMap Snapshot) (c : Checkpoint)
    (s : Snapshot) : (l.With snaps c s).snapshot fs c.id = .ok s := by
  refine (snapshot_eq_ok_iff rfl).mpr ⟨⟨c, ?_, rfl⟩, NameMap.get?_insert_self ..⟩
  exact List.mem_append_right _ (List.mem_singleton_self c)

theorem append_of_memory (hl : l.store = .memory snaps) (fs : Files) (now : Nat) (label : String)
    (s : Snapshot) : (∃ e, e.IsDirect ∧ l.append fs now label s = (.error e, l, fs)) ∨
      ∃ c, l.Continues c ∧ l.append fs now label s = (.ok c, l.With snaps c s, fs) := by
  rcases l.refuses_or_new label with ⟨e, hrefuses⟩ | ⟨hlabel, hnumber⟩
  · refine .inl ⟨e, ?_, hrefuses.append_eq ..⟩
    cases hrefuses <;> trivial
  · have hid := nextId_of_hasNumber hnumber
    refine .inr ⟨{ id := l.newId, label, timestamp := now, parent := l.latest?.map (·.id) },
      ⟨hid, hlabel, rfl⟩, ?_⟩
    rw [append, hlabel, if_neg Bool.false_ne_true, hid, hl]
    rfl

end CheckpointLog

namespace CheckpointM

variable {s s' : CheckpointStorage} {m : Snapshot} {snaps : NameMap Snapshot} {id : String}
  {catalog : Catalog}

/-! ### Outcomes -/

theorem outcome_active {α : Type} (x : ConfigM α) (s : CheckpointStorage) :
    outcome (active x) s
      = ((outcome x s.workspace).1, { s with workspace := (outcome x s.workspace).2 }) := by
  rw [active, outcome_bind, outcome_get]
  exact outcome_ofExcept ..

theorem outcome_snapshotOf (id : String) (s : CheckpointStorage) :
    outcome (snapshotOf id) s = (s.log.snapshot s.workspace.files id, s) := by
  rw [snapshotOf, outcome_bind, outcome_get]
  exact outcome_ofExcept ..

theorem outcome_append (label : String) (snapshot : Snapshot) (s : CheckpointStorage) :
    outcome (append label snapshot) s =
      let r := s.log.append s.workspace.files s.workspace.now label snapshot
      (r.1, { s with log := r.2.1, workspace := { s.workspace with files := r.2.2 } }) := by
  rw [append, outcome_bind, outcome_get]
  exact outcome_ofExcept ..

/-- Importing with the listeners of the checkpoints. -/
theorem outcome_importFrom (catalog : Catalog) (source : Storage) (s : CheckpointStorage) :
    outcome (importFrom catalog source) s =
      let r := outcome (ImportM.importFrom catalog source)
        { workspace := s.workspace, listeners := s.listeners }
      (r.1, { s with workspace := r.2.workspace, listeners := r.2.listeners }) := by
  rw [importFrom, outcome_bind, outcome_get]
  exact outcome_ofExcept ..

theorem outcome_select_none (s : CheckpointStorage) :
    outcome (select none) s = (.ok (), { s with selected := none }) :=
  rfl

/-! ### Taking a checkpoint -/

/-- What asking for a checkpoint of a configuration gives and leaves. -/
inductive Taken (m : Snapshot) (snaps : NameMap Snapshot) (s : CheckpointStorage) :
    Except Error CheckpointOutcome → CheckpointStorage → Prop where
  /-- It failed, and nothing is different. -/
  | failed (e : Error) (he : e.IsDirect) : Taken m snaps s (.error e) s
  /-- The latest checkpoint has the configuration. -/
  | unchanged (c : Checkpoint) (L : Snapshot)
    (hsnapshot : s.log.snapshot s.workspace.files c.id = .ok L)
    (hsame : L.same m.exported = true) : Taken m snaps s (.ok (.unchanged c)) s
  /-- There is a new checkpoint with the configuration. -/
  | created (c : Checkpoint) (hc : s.log.Continues c) :
    Taken m snaps s (.ok (.created c)) { s with log := s.log.With snaps c m.exported }

theorem taken_append (hs : s.log.store = .memory snaps) (label : String) :
    Taken m snaps s (outcome (do return .created (← append label m.exported)) s).1
      (outcome (do return CheckpointOutcome.created (← append label m.exported)) s).2 := by
  rw [outcome_bind, outcome_append]
  rcases CheckpointLog.append_of_memory hs s.workspace.files s.workspace.now label m.exported
    with ⟨e, he, h⟩ | ⟨c, hc, h⟩
  · simp only [h]
    exact .failed e he
  · simp only [h]
    exact .created c hc

/-- A checkpoint is asked for: the latest one is compared with the export, if there is one. -/
theorem outcome_checkpoint (hm : s.workspace.active.Shows m) (label : String) :
    outcome (checkpoint label) s = match s.log.latest? with
      | none => outcome (do return CheckpointOutcome.created (← append label m.exported)) s
      | some latest => match s.log.snapshot s.workspace.files latest.id with
        | .error e => (.error e, s)
        | .ok L =>
          if L.same m.exported then (.ok (.unchanged latest), s)
          else outcome (do return CheckpointOutcome.created (← append label m.exported)) s := by
  have hexport : outcome (active ConfigM.exportAll) s = (.ok m.exported, s) := by
    rw [outcome_active, ConfigM.exportAll, ConfigM.outcome_ask, hm.exportAll]
  rw [checkpoint, outcome_bind_ok hexport, outcome_bind_ok (outcome_get s)]
  cases s.log.latest? with
  | none => rfl
  | some latest =>
    dsimp only
    rw [outcome_bind, outcome_snapshotOf]
    cases s.log.snapshot s.workspace.files latest.id with
    | error e => rfl
    | ok L =>
      dsimp only
      split <;> rfl

/-- Asking for a checkpoint of a configuration in memory. -/
theorem taken_checkpoint (hm : s.workspace.active = .memory m) (hs : s.log.store = .memory snaps)
    (label : String) :
    Taken m snaps s (outcome (checkpoint label) s).1 (outcome (checkpoint label) s).2 := by
  have hshows : s.workspace.active.Shows m := hm ▸ .memory m
  rw [outcome_checkpoint hshows]
  cases hl : s.log.latest? with
  | none => exact taken_append hs label
  | some latest =>
    dsimp only
    cases hL : s.log.snapshot s.workspace.files latest.id with
    | error e => exact .failed e (CheckpointLog.failsAs_snapshot s.log _ e hL).isDirect
    | ok L =>
      dsimp only
      split
      · rename_i hsame
        exact .unchanged latest L hL hsame
      · exact taken_append hs label

/-- The checkpoint that has the configuration is found, and it has an equal one. -/
theorem Taken.exists_snapshot {b : CheckpointOutcome} (h : Taken m snaps s (.ok b) s')
    (hs : s.log.store = .memory snaps) (fs : Files) :
    ∃ L, s'.log.snapshot fs b.checkpoint.id = .ok L ∧ L.same m.exported = true := by
  cases h with
  | unchanged c L hL hsame => exact ⟨L, CheckpointLog.InMemory.snapshot_eq ⟨snaps, hs⟩ hL fs, hsame⟩
  | created c =>
    refine ⟨m.exported, CheckpointLog.snapshot_with .., ?_⟩
    exact (Snapshot.Agrees.refl m).exported_same

/-- The log stays, or it has the new checkpoint at its end. -/
theorem Taken.log_eq_of_continues {r : Except Error CheckpointOutcome} (h : Taken m snaps s r s') :
    s'.log = s.log ∨ ∃ c, s.log.Continues c ∧ s'.log = s.log.With snaps c m.exported := by
  cases h with
  | failed e he => exact .inl rfl
  | unchanged c L hL hsame => exact .inl rfl
  | created c hc => exact .inr ⟨c, hc, rfl⟩

theorem Taken.log_eq {r : Except Error CheckpointOutcome} (h : Taken m snaps s r s') :
    s'.log = s.log ∨ ∃ c, s'.log = s.log.With snaps c m.exported :=
  h.log_eq_of_continues.imp_right fun ⟨c, _, hlog⟩ => ⟨c, hlog⟩

theorem Taken.workspace_eq {r : Except Error CheckpointOutcome} (h : Taken m snaps s r s') :
    s'.workspace = s.workspace := by
  cases h <;> rfl

theorem Taken.listeners_eq {r : Except Error CheckpointOutcome} (h : Taken m snaps s r s') :
    s'.listeners = s.listeners := by
  cases h <;> rfl

theorem Taken.selected_eq {r : Except Error CheckpointOutcome} (h : Taken m snaps s r s') :
    s'.selected = s.selected := by
  cases h <;> rfl

/-! ### Going back -/

/-- Going back is an import of the checkpoint's snapshot; the log stays as it is. -/
theorem outcome_rollback (catalog : Catalog) (id : String) (s : CheckpointStorage) :
    outcome (rollback catalog id) s = match s.log.snapshot s.workspace.files id with
      | .error e => (.error e, s)
      | .ok L => match outcome (ImportM.importFrom catalog (.view L))
            { workspace := s.workspace, listeners := s.listeners } with
        | (.error e, i) => (.error e, { s with workspace := i.workspace, listeners := i.listeners })
        | (.ok summary, i) => (.ok summary,
            { s with workspace := i.workspace, listeners := i.listeners, selected := none }) := by
  rw [rollback, outcome_bind, outcome_snapshotOf]
  cases s.log.snapshot s.workspace.files id with
  | error e => rfl
  | ok L =>
    dsimp only
    rw [outcome_bind, outcome_importFrom]
    rcases outcome (ImportM.importFrom catalog (.view L))
      { workspace := s.workspace, listeners := s.listeners } with ⟨e | summary, i⟩
    · rfl
    · dsimp only
      rw [outcome_bind_ok (outcome_select_none _)]
      rfl

/-- The import that a successful return consists of. -/
theorem exists_import_of_rollback {summary : ImportSummary}
    (h : outcome (rollback catalog id) s = (.ok summary, s')) :
    ∃ L i, s.log.snapshot s.workspace.files id = .ok L ∧
      outcome (ImportM.importFrom catalog (.view L))
        { workspace := s.workspace, listeners := s.listeners } = (.ok summary, i) ∧
      s' = { s with workspace := i.workspace, listeners := i.listeners, selected := none } := by
  rw [outcome_rollback] at h
  cases hL : s.log.snapshot s.workspace.files id with
  | error e =>
    rw [hL] at h
    cases h
  | ok L =>
    simp only [hL] at h
    rcases hi : outcome (ImportM.importFrom catalog (.view L))
      { workspace := s.workspace, listeners := s.listeners } with ⟨e | summary', i⟩
    · rw [hi] at h
      cases h
    · rw [hi] at h
      cases h
      exact ⟨L, i, rfl, hi, rfl⟩

/-- A successful return gives agreement with the checkpoint. -/
theorem agrees_of_rollback (hs : s.workspace.InMemory) {summary : ImportSummary}
    (h : outcome (rollback catalog id) s = (.ok summary, s')) :
    ∃ L m, s.log.snapshot s.workspace.files id = .ok L ∧ s'.workspace.active = .memory m ∧
      m.Agrees L ∧ s'.log = s.log := by
  obtain ⟨L, i, hL, hi, rfl⟩ := exists_import_of_rollback h
  obtain ⟨m, hm, hagrees⟩ := ImportM.agrees_of_importFrom hs hi
  exact ⟨L, m, hL, hm, hagrees, rfl⟩

end CheckpointM

end Cookbook
