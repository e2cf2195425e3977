import Cookbook.Proofs.Checkpoint.Reopening
import Cookbook.Proofs.Checkpoint.Session

/-!
# What asking for a checkpoint gives

A checkpoint of the active configuration is asked for with a label. If the latest checkpoint has an
equal snapshot, that one is given, whatever the label is. If not, a label that is in use is an
error, and with a free label there is a new checkpoint, as long as there are ids: a log that is
reached has as many numbers in use as checkpoints. Either way the checkpoint that is given reads as
the configuration does, and asking again, with any label, gives the same checkpoint.

The first comparison needs the snapshot of the latest checkpoint. A log has it when all that was
done to the log was to add checkpoints: `CheckpointLog.Reached` says so for logs in memory and for
logs in a directory, which may be opened again at any time. The snapshots of a directory have to
come back equal from their texts. A configuration that has no text cannot be written to a directory,
which is the one further way to fail.

## The invariant

`CheckpointLog.Stands` has one case for each kind of log. In memory, the snapshot of the latest
checkpoint is there, and no other is asked for. A directory is not there yet, or it has all of the
log on file.

## Main definitions

* `CheckpointLog.Reached`: a log to which checkpoints were added.
* `CheckpointLog.HasLatest`: the latest checkpoint has a given configuration.
* `CheckpointM.Asked`: how asking for a checkpoint ends when there is no equal one.
* `CheckpointM.Answers`: what is given when a checkpoint is asked for.

## Main results

* `CheckpointLog.Stands.appended`: what adding a checkpoint does.
* `CheckpointLog.Reached.stands`: the invariant holds of all logs that are reached.
* `CheckpointLog.Reached.hasNumber_iff`: their ids last as long as there are numbers.
* `CheckpointM.answers_checkpoint`: what asking for a checkpoint gives.
* `Session.reached_after`: logs of sessions are reached.
-/

namespace Cookbook

open Change

namespace CheckpointLog

variable {fs fs' : Files} {dir : Path} {place : List String} {t : FileTree} {l l' : CheckpointLog}
  {snaps : NameMap Snapshot} {c : Checkpoint} {entries : List Checkpoint} {s : Snapshot}
  {label : String} {now : Nat}

/-- A snapshot can be kept by a log: in memory always, in a directory if it is read back equal, and
the time is a number of 64 bits. -/
def CanKeep (l : CheckpointLog) (now : Nat) (s : Snapshot) : Prop :=
  l.InMemory ∨ now < Nat.pow 2 64 ∧ s.ReadsBack

/-- A snapshot can be written to a log: only in a directory it needs a text. -/
def CanWrite (l : CheckpointLog) (s : Snapshot) : Prop :=
  ∀ dir, l.store = .directory dir → ∃ text, s.encode = .ok text

/-- A log as it is among some files after checkpoints were added to it. -/
inductive Reached : Files → CheckpointLog → Prop
  /-- A new log in memory. -/
  | inMemory (fs : Files) : Reached fs {}
  /-- A new log of a directory, which is empty as soon as it has been made. -/
  | inDirectory {fs fs' : Files} {dir : Path} (hmake : fs.createDirectories dir = .ok fs')
    (hroom : HasRoom fs') (hempty : fs'.get dir = .ok (.dir [])) :
    Reached fs { store := .directory dir }
  /-- A checkpoint is added, or cannot be. -/
  | append {fs : Files} {l : CheckpointLog} {now : Nat} {s : Snapshot} (h : Reached fs l)
    (hs : l.CanKeep now s) (label : String) :
    Reached (l.append fs now label s).2.2 (l.append fs now label s).2.1
  /-- A log is opened again. -/
  | reopen {fs : Files} {l l' : CheckpointLog} {dir : Path} (h : Reached fs l)
    (hdir : l.store = .directory dir) (hopen : CheckpointLog.open fs dir = .ok l') : Reached fs l'
  /-- Files are changed, and the log is in memory. -/
  | elsewhere {fs : Files} {l : CheckpointLog} (h : Reached fs l) (hl : l.InMemory) (fs' : Files) :
    Reached fs' l

/-- The latest checkpoint of a log has a configuration. -/
def HasLatest (fs : Files) (l : CheckpointLog) (c : Checkpoint) (s : Snapshot) : Prop :=
  l.latest? = some c ∧ ∃ L, l.snapshot fs c.id = .ok L ∧ L.same s = true

/-! ### The invariant -/

/-- A log stands: what it takes to compare with its latest checkpoint, and to add another. -/
inductive Stands (fs : Files) (l : CheckpointLog) : Prop
  /-- The log is in memory, with the snapshot of its latest checkpoint. -/
  | inMemory {snaps : NameMap Snapshot} (hl : l.store = .memory snaps)
    (hlatest : ∀ c, l.latest? = some c → ∃ s, snaps.get? c.id = some s)
  /-- The log is that of a directory and has no checkpoints. -/
  | new {fs' : Files} {dir : Path} {place : List String} (hl : l = { store := .directory dir })
    (hmake : fs.createDirectories dir = .ok fs') (hroom : HasRoom fs')
    (hseat : fs'.Seat dir place (.dir []))
  /-- All of the log is in a directory. -/
  | filed {dir : Path} {place : List String} {t : FileTree} {snaps : NameMap Snapshot}
    (hl : l.store = .directory dir) (hroom : HasRoom fs) (hseat : fs.Seat dir place t)
    (h : Filed t l.entries snaps)

/-- What adding a checkpoint can give: the label is in use, no id is left, the snapshot cannot be
written to the directory, or there is a checkpoint more, with the snapshot. -/
inductive Appended (fs : Files) (now : Nat) (label : String) (s : Snapshot) (l : CheckpointLog) :
    Except Error Checkpoint × CheckpointLog × Files → Prop
  /-- The label is in use. -/
  | inUse (hlabel : l.hasLabel label = true) :
    Appended fs now label s l (.error (.checkpointExists label), l, fs)
  /-- There is no id. -/
  | exhausted (hlabel : l.hasLabel label = false) (hnumber : ¬ l.HasNumber) :
    Appended fs now label s l (.error .idsExhausted, l, fs)
  /-- The snapshot has no text. -/
  | unwritable {e : Error} {dir : Path} {fs' : Files} (hlabel : l.hasLabel label = false)
    (hnumber : l.HasNumber) (hl : l.store = .directory dir) (hs : s.encode = .error e)
    (hstands : l.Stands fs') : Appended fs now label s l (.error e, l, fs')
  /-- There is a new checkpoint. -/
  | added {l' : CheckpointLog} {fs' : Files} (hlabel : l.hasLabel label = false)
    (hnumber : l.HasNumber) (hwrite : l.CanWrite s)
    (hentries : l'.entries = l.entries ++ [l.next now label]) (hstands : l'.Stands fs')
    (hlatest : l'.HasLatest fs' (l.next now label) s) :
    Appended fs now label s l (.ok (l.next now label), l', fs')

theorem not_canWrite {e : Error} (hl : l.store = .directory dir) (hs : s.encode = .error e) :
    ¬ l.CanWrite s := by
  intro hwrite
  obtain ⟨text, htext⟩ := hwrite dir hl
  cases hs.symm.trans htext

theorem InMemory.canWrite (hl : l.InMemory) (s : Snapshot) : l.CanWrite s := by
  obtain ⟨snaps, hsnaps⟩ := hl
  intro dir hdir
  cases hsnaps.symm.trans hdir

theorem latest?_of_entries (h : l'.entries = l.entries ++ [c]) : l'.latest? = some c := by
  rw [latest?, h, List.getLast?_concat]

theorem mem_of_latest? (h : l.latest? = some c) : c ∈ l.entries := List.mem_of_getLast? h

/-- With all of a log on file, its snapshots are found. -/
theorem Filed.exists_snapshot (h : Filed t l.entries snaps) (hroom : HasRoom fs)
    (hseat : fs.Seat dir place t) (hl : l.store = .directory dir) (hc : c ∈ l.entries) :
    ∃ s L, snaps.get? c.id = some s ∧ l.snapshot fs c.id = .ok L ∧ L.same s = true := by
  let twin : CheckpointLog := { entries := l.entries, store := .memory snaps }
  have htwins : Twins dir fs l twin := ⟨hroom, hl, rfl, place, t, snaps, hseat, rfl, h⟩
  obtain ⟨s, text, hsnap, -⟩ := h.snapshot c hc
  have hs : twin.snapshot fs c.id = .ok s :=
    (snapshot_eq_ok_iff rfl).mpr ⟨⟨c, hc, rfl⟩, hsnap⟩
  have halike := htwins.snapshot_alike fs c.id
  rw [hs] at halike
  cases hL : l.snapshot fs c.id with
  | error e =>
    rw [hL] at halike
    cases halike
  | ok L =>
    rw [hL] at halike
    cases halike with
    | ok hsame => exact ⟨s, L, hsnap, rfl, hsame⟩

namespace Stands

/-- The snapshot of the latest checkpoint is found. -/
theorem exists_latest (h : l.Stands fs) (hc : l.latest? = some c) :
    ∃ L, l.snapshot fs c.id = .ok L := by
  cases h with
  | inMemory hl hlatest =>
    obtain ⟨s, hs⟩ := hlatest c hc
    exact ⟨s, (snapshot_eq_ok_iff hl).mpr ⟨⟨c, mem_of_latest? hc, rfl⟩, hs⟩⟩
  | new hl =>
    rw [hl] at hc
    cases hc
  | filed hl hroom hseat h =>
    obtain ⟨-, L, -, hL, -⟩ := h.exists_snapshot hroom hseat hl (mem_of_latest? hc)
    exact ⟨L, hL⟩

end Stands

/-! ### Adding a checkpoint -/

/-- If it is refused. -/
theorem appended_of_refuses {e : Error} (h : l.Refuses label e) (fs : Files) (now : Nat)
    (s : Snapshot) : Appended fs now label s l (l.append fs now label s) := by
  rw [h.append_eq]
  cases h with
  | inUse hlabel => exact .inUse hlabel
  | exhausted hlabel hnumber => exact .exhausted hlabel hnumber

/-- In memory. -/
theorem appended_inMemory (hl : l.store = .memory snaps) (fs : Files) (now : Nat) (label : String)
    (s : Snapshot) : Appended fs now label s l (l.append fs now label s) := by
  rcases l.refuses_or_new label with ⟨e, hrefuses⟩ | ⟨hlabel, hnumber⟩
  · exact appended_of_refuses hrefuses ..
  · have happend : l.append fs now label s
        = (.ok (l.next now label), l.With snaps (l.next now label) s, fs) := by
      rw [append_of_new hlabel hnumber, hl]
      rfl
    have hlatest : (l.With snaps (l.next now label) s).latest? = some (l.next now label) :=
      latest?_of_entries rfl
    rw [happend]
    refine .added hlabel hnumber (InMemory.canWrite ⟨snaps, hl⟩ s) rfl (.inMemory rfl fun c hc => ?_)
      ⟨hlatest, s, snapshot_with .., s.same_refl⟩
    cases hlatest.symm.trans hc
    exact ⟨s, NameMap.get?_insert_self ..⟩

/-- In a directory that is there. -/
theorem appended_filed (hl : l.store = .directory dir) (hroom : HasRoom fs)
    (hseat : fs.Seat dir place t) (h : Filed t l.entries snaps) (hnow : now < Nat.pow 2 64)
    (hs : s.ReadsBack) (label : String) : Appended fs now label s l (l.append fs now label s) := by
  rcases l.refuses_or_new label with ⟨e, hrefuses⟩ | ⟨hlabel, hnumber⟩
  · exact appended_of_refuses hrefuses ..
  · cases hencode : s.encode with
    | error e =>
      rw [append_of_encode_error hseat hl hlabel hnumber hencode]
      exact .unwritable hlabel hnumber hl hencode (.filed hl hroom hseat h)
    | ok text =>
      obtain ⟨fs', t', happend, hroom', hseat', h'⟩ := h.exists_append hroom hseat hl hlabel
        hnumber hencode (hs text hencode) (UInt64.ofNat now)
      rw [UInt64.toNat_ofNat_of_lt' hnow] at happend h'
      obtain ⟨s', L, hs', hL, hsame⟩ := h'.exists_snapshot (l := ⟨_, .directory dir⟩) hroom' hseat'
        rfl (List.mem_append_right _ (List.mem_singleton_self _))
      have heq : s' = s := Option.some.inj (hs'.symm.trans (NameMap.get?_insert_self ..))
      rw [happend]
      exact .added hlabel hnumber (fun _ _ => ⟨text, hencode⟩) rfl (.filed rfl hroom' hseat' h')
        ⟨latest?_of_entries rfl, L, hL, heq ▸ hsame⟩

/-- It makes no difference whether the directory has been made before. -/
theorem append_of_createDirectories (hl : l.store = .directory dir)
    (hlabel : l.hasLabel label = false) (hnumber : l.HasNumber)
    (hmake : fs.createDirectories dir = .ok fs') (hmade : fs'.createDirectories dir = .ok fs') :
    l.append fs now label s = l.append fs' now label s := by
  have hsave : save fs l.newId s l.store = save fs' l.newId s l.store := by
    rw [hl, save, save, hmake, hmade]
  rw [append_of_new hlabel hnumber, append_of_new hlabel hnumber, hsave]

/-- What adding a checkpoint does to a log that stands. -/
theorem Stands.appended (h : l.Stands fs) (hs : l.CanKeep now s) (label : String) :
    Appended fs now label s l (l.append fs now label s) := by
  cases h with
  | inMemory hl => exact appended_inMemory hl fs now label s
  | @new fs' dir place hl hmake hroom hseat =>
    subst hl
    obtain ⟨hnow, hs⟩ := hs.resolve_left fun ⟨_, hmemory⟩ => by cases hmemory
    have happended := appended_filed (l := { store := .directory dir }) rfl hroom hseat filed_empty
      hnow hs label
    have hfirst : HasNumber { store := .directory dir } := (by decide : 0 + 1 < Nat.pow 2 64)
    rw [append_of_createDirectories rfl rfl hfirst hmake hseat.createDirectories_eq]
    generalize CheckpointLog.append fs' now label s { store := .directory dir } = r at happended ⊢
    -- a log without checkpoints has no labels, and all numbers are left
    cases happended with
    | inUse hlabel => cases hlabel
    | exhausted _ hnumber => exact absurd hfirst hnumber
    | unwritable hlabel hnumber hl hs hstands => exact .unwritable hlabel hnumber hl hs hstands
    | added hlabel hnumber hwrite hentries hstands hlatest =>
      exact .added hlabel hnumber hwrite hentries hstands hlatest
  | filed hl hroom hseat h =>
    obtain ⟨hnow, hs⟩ := hs.resolve_left fun ⟨_, hmemory⟩ => by cases hl.symm.trans hmemory
    exact appended_filed hl hroom hseat h hnow hs label

/-! ### Logs that are reached -/

/-- A log in memory stands if its latest checkpoint has a configuration. -/
theorem HasLatest.stands (h : l.HasLatest fs c s) (hl : l.InMemory) (fs' : Files) :
    l.Stands fs' := by
  obtain ⟨snaps, hl⟩ := hl
  obtain ⟨hlatest, L, hL, -⟩ := h
  refine .inMemory hl fun c' hc' => ⟨L, ?_⟩
  cases hlatest.symm.trans hc'
  exact ((snapshot_eq_ok_iff hl).mp hL).2

/-- Opening a log that stands gives it again. -/
theorem Stands.open_eq (h : l.Stands fs) (hdir : l.store = .directory dir) :
    CheckpointLog.open fs dir = .ok l := by
  cases h with
  | inMemory hl => cases hl.symm.trans hdir
  | @new fs' dir' place hl hmake hroom hseat =>
    subst hl
    cases hdir
    have hfile : fs.isFile (indexFile dir) = false := by
      refine Bool.eq_false_iff.mpr fun hfile => ?_
      obtain ⟨names, c, hlocate, -⟩ := Files.exists_of_isFile hfile
      have hne := (Files.exists_of_locate hseat.locate).1
      obtain ⟨place', entries, hplace, hget, -⟩ := Files.locate_of_join hne rfl hlocate
      -- the directory is there, so making it gave the same files
      have hthere : fs.Seat dir place' (.dir entries) := ⟨hplace, hget, rfl⟩
      cases hmake.symm.trans hthere.createDirectories_eq
      have hempty := hseat.isFile_eq (admits_index hroom) (by simp [FileTree.look_empty])
      rw [FileTree.look_empty (by simp)] at hempty
      cases hempty.symm.trans hfile
    rw [CheckpointLog.open, hfile, if_neg Bool.false_ne_true]
  | @filed dir' place t snaps hl hroom hseat h =>
    cases hl.symm.trans hdir
    rw [h.open_eq hroom hseat, ← hl]

theorem Stands.elsewhere (h : l.Stands fs) (hl : l.InMemory) (fs' : Files) : l.Stands fs' := by
  obtain ⟨snaps, hsnaps⟩ := hl
  cases h with
  | inMemory hl hlatest => exact .inMemory hl hlatest
  | new hl =>
    rw [hl] at hsnaps
    cases hsnaps
  | filed hl => cases hl.symm.trans hsnaps

/-- Whether a checkpoint could be added or not, the log stands. -/
theorem Appended.stands {r : Except Error Checkpoint × CheckpointLog × Files}
    (h : Appended fs now label s l r) (hl : l.Stands fs) : r.2.1.Stands r.2.2 := by
  cases h with
  | inUse => exact hl
  | exhausted => exact hl
  | unwritable _ _ _ _ hstands => exact hstands
  | added _ _ _ _ hstands => exact hstands

theorem Reached.stands (h : Reached fs l) : l.Stands fs := by
  induction h with
  | inMemory fs =>
    refine .inMemory rfl fun c hc => ?_
    cases hc
  | inDirectory hmake hroom hempty =>
    obtain ⟨place, hseat⟩ := Files.exists_seat hempty
    exact .new rfl hmake hroom hseat
  | append h hs label ih => exact (ih.appended hs label).stands ih
  | reopen h hdir hopen ih =>
    cases hopen.symm.trans (ih.open_eq hdir)
    exact ih
  | elsewhere h hl fs' ih => exact ih.elsewhere hl fs'

/-- The highest id of a log that is reached is the number of its checkpoints. -/
theorem Reached.highest_eq (h : Reached fs l) : l.highest = l.entries.length := by
  induction h with
  | inMemory | inDirectory => rfl
  | append h hs label ih =>
    have happended := h.stands.appended hs label
    generalize CheckpointLog.append _ _ label _ _ = r at happended ⊢
    cases happended with
    | inUse | exhausted | unwritable => exact ih
    | added hlabel hnumber hwrite hentries =>
      rw [highest_concat hentries (nextId_of_hasNumber hnumber), hentries, List.length_append, ih]
      rfl
  | reopen h hdir hopen ih =>
    cases hopen.symm.trans (h.stands.open_eq hdir)
    exact ih
  | elsewhere _ _ _ ih => exact ih

theorem Reached.hasNumber_iff (h : Reached fs l) :
    l.HasNumber ↔ l.entries.length + 1 < Nat.pow 2 64 := by
  rw [HasNumber, h.highest_eq]

end CheckpointLog

/-- That a label is in use is no matter of writing a snapshot. -/
theorem Snapshot.encode_ne_checkpointExists {s : Snapshot} {label : String} :
    s.encode ≠ .error (.checkpointExists label) := by
  intro h
  rw [encode] at h
  split at h
  · cases h
  · cases h

namespace CheckpointM

open CheckpointLog

variable {s s' t : CheckpointStorage} {m : Snapshot} {c : Checkpoint} {label : String}

/-! ### Asking for a checkpoint -/

/-- If the latest checkpoint has the configuration, it is given. -/
theorem outcome_checkpoint_of_hasLatest (hm : s.workspace.active.Shows m)
    (h : s.log.HasLatest s.workspace.files c m.exported) (label : String) :
    outcome (checkpoint label) s = (.ok (.unchanged c), s) := by
  obtain ⟨hlatest, L, hL, hsame⟩ := h
  rw [outcome_checkpoint hm, hlatest]
  dsimp only
  rw [hL]
  exact if_pos hsame

/-- If it does not, there is a new checkpoint, unless it cannot be added. -/
theorem outcome_checkpoint_of_new (hm : s.workspace.active.Shows m)
    (hlog : s.log.Stands s.workspace.files)
    (h : ∀ c, ¬ s.log.HasLatest s.workspace.files c m.exported) (label : String) :
    outcome (checkpoint label) s =
      let r := s.log.append s.workspace.files s.workspace.now label m.exported
      (r.1.map .created,
        { s with log := r.2.1, workspace := { s.workspace with files := r.2.2 } }) := by
  have hnew : outcome (checkpoint label) s
      = outcome (do return CheckpointOutcome.created (← append label m.exported)) s := by
    rw [outcome_checkpoint hm]
    cases hlatest : s.log.latest? with
    | none => rfl
    | some c =>
      obtain ⟨L, hL⟩ := hlog.exists_latest hlatest
      dsimp only
      rw [hL]
      exact if_neg fun hsame => h c ⟨hlatest, L, hL, hsame⟩
  rw [hnew, outcome_bind, outcome_append]
  dsimp only
  cases (s.log.append s.workspace.files s.workspace.now label m.exported).1 <;> rfl

/-- What asking for a checkpoint gives if the latest one does not have the configuration: the label
is in use, no id is left, the configuration has no text for the directory, or there is a new
checkpoint. -/
inductive Asked (m : Snapshot) (label : String) (s : CheckpointStorage) :
    Except Error CheckpointOutcome × CheckpointStorage → Prop
  /-- The label is in use. -/
  | inUse (hlabel : s.log.hasLabel label = true) :
    Asked m label s (.error (.checkpointExists label), s)
  /-- There is no id. -/
  | exhausted (hlabel : s.log.hasLabel label = false) (hnumber : ¬ s.log.HasNumber) :
    Asked m label s (.error .idsExhausted, s)
  /-- The configuration has no text. -/
  | unwritable {e : Error} {s' : CheckpointStorage} (hlabel : s.log.hasLabel label = false)
    (hnumber : s.log.HasNumber) (hwrite : ¬ s.log.CanWrite m.exported)
    (hencode : m.exported.encode = .error e) (hlog : s'.log = s.log) : Asked m label s (.error e, s')
  /-- There is a new checkpoint. -/
  | created {s' : CheckpointStorage} (hlabel : s.log.hasLabel label = false)
    (hnumber : s.log.HasNumber) (hwrite : s.log.CanWrite m.exported)
    (hentries : s'.log.entries = s.log.entries ++ [s.log.next s.workspace.now label])
    (hactive : s'.workspace.active = s.workspace.active)
    (hlatest : s'.log.HasLatest s'.workspace.files (s.log.next s.workspace.now label) m.exported) :
    Asked m label s (.ok (.created (s.log.next s.workspace.now label)), s')

theorem asked_checkpoint (hm : s.workspace.active.Shows m) (hlog : s.log.Stands s.workspace.files)
    (hkeep : s.log.CanKeep s.workspace.now m.exported)
    (h : ∀ c, ¬ s.log.HasLatest s.workspace.files c m.exported) (label : String) :
    Asked m label s (outcome (checkpoint label) s) := by
  have happended := hlog.appended hkeep label
  rw [outcome_checkpoint_of_new hm hlog h]
  generalize s.log.append s.workspace.files s.workspace.now label m.exported = r at happended ⊢
  cases happended with
  | inUse hlabel => exact .inUse hlabel
  | exhausted hlabel hnumber => exact .exhausted hlabel hnumber
  | unwritable hlabel hnumber hdir hencode =>
    exact .unwritable hlabel hnumber (not_canWrite hdir hencode) hencode rfl
  | added hlabel hnumber hwrite hentries _ hlatest =>
    exact .created hlabel hnumber hwrite hentries rfl hlatest

/-- What is given when a checkpoint of a configuration is asked for, and what is left. -/
structure Answers (m : Snapshot) (label : String) (s : CheckpointStorage)
    (r : Except Error CheckpointOutcome × CheckpointStorage) : Prop where
  /-- The latest checkpoint is given just if it has the configuration. -/
  unchanged : ∀ c, r = (.ok (.unchanged c), s) ↔
    s.log.HasLatest s.workspace.files c m.exported
  /-- Otherwise the label has to be free. -/
  inUse : (∀ c, ¬ s.log.HasLatest s.workspace.files c m.exported) →
    (r = (.error (.checkpointExists label), s) ↔ s.log.hasLabel label = true)
  /-- Then there is one checkpoint more, as long as there are fewer than there are ids. -/
  created : (∀ c, ¬ s.log.HasLatest s.workspace.files c m.exported) →
    s.log.hasLabel label = false → s.log.entries.length + 1 < Nat.pow 2 64 →
    s.log.CanWrite m.exported →
    ∃ s', r = (.ok (.created (s.log.next s.workspace.now label)), s') ∧
      s'.log.entries = s.log.entries ++ [s.log.next s.workspace.now label]
  /-- Only a directory that cannot have the configuration as a text refuses it. -/
  refused : (∀ c, ¬ s.log.HasLatest s.workspace.files c m.exported) →
    s.log.hasLabel label = false → s.log.entries.length + 1 < Nat.pow 2 64 →
    ¬ s.log.CanWrite m.exported →
    ∃ e s', m.exported.encode = .error e ∧ r = (.error e, s') ∧ s'.log = s.log
  /-- When all ids are in use there is no new checkpoint. -/
  exhausted : (∀ c, ¬ s.log.HasLatest s.workspace.files c m.exported) →
    s.log.hasLabel label = false → Nat.pow 2 64 ≤ s.log.entries.length + 1 →
    r = (.error .idsExhausted, s)
  /-- The checkpoint that is given reads as the configuration, which is as before. -/
  readable : ∀ b s', r = (.ok b, s') → s'.workspace.active = s.workspace.active ∧
    ∃ L read, outcome (snapshotOf b.checkpoint.id) s' = (.ok L, s') ∧
      (Storage.view L).exportAll s'.workspace.files = .ok read ∧ read.same m.exported = true
  /-- And it is given again as long as nothing is written. -/
  again : ∀ b s', r = (.ok b, s') → ∀ t : CheckpointStorage, t.log = s'.log →
    t.workspace.files = s'.workspace.files → t.workspace.active = s'.workspace.active →
    ∀ label, outcome (checkpoint label) t = (.ok (.unchanged b.checkpoint), t)

/-- A checkpoint that is given has the configuration and is the latest one. -/
theorem hasLatest_of_checkpoint (hm : s.workspace.active.Shows m)
    (hlog : s.log.Stands s.workspace.files) (hkeep : s.log.CanKeep s.workspace.now m.exported)
    {b : CheckpointOutcome} (h : outcome (checkpoint label) s = (.ok b, s')) :
    s'.log.HasLatest s'.workspace.files b.checkpoint m.exported ∧
      s'.workspace.active = s.workspace.active := by
  by_cases hlatest : ∃ c, s.log.HasLatest s.workspace.files c m.exported
  · obtain ⟨c, hc⟩ := hlatest
    cases h.symm.trans (outcome_checkpoint_of_hasLatest hm hc label)
    exact ⟨hc, rfl⟩
  · have hasked := asked_checkpoint hm hlog hkeep (not_exists.mp hlatest) label
    rw [h] at hasked
    cases hasked with
    | created _ _ _ _ hactive hlatest => exact ⟨hlatest, hactive⟩

/-- A log in memory stands if a checkpoint was given: the latest one was found. -/
theorem stands_of_checkpoint (hm : s.workspace.active.Shows m) (hl : s.log.InMemory)
    {b : CheckpointOutcome} (h : outcome (checkpoint label) s = (.ok b, s')) :
    s.log.Stands s.workspace.files := by
  obtain ⟨snaps, hl⟩ := hl
  refine .inMemory hl fun c hc => ?_
  rw [outcome_checkpoint hm, hc] at h
  dsimp only at h
  cases hL : s.log.snapshot s.workspace.files c.id with
  | error e =>
    rw [hL] at h
    cases h
  | ok L => exact ⟨L, ((CheckpointLog.snapshot_eq_ok_iff hl).mp hL).2⟩

/-- In memory, a checkpoint with a label that is not in use is given if there is an id for it. -/
theorem exists_checkpoint_of_free (hm : s.workspace.active.Shows m) (hl : s.log.InMemory)
    (hlog : s.log.Stands s.workspace.files) (hlabel : s.log.hasLabel label = false)
    (hnumber : s.log.HasNumber) :
    ∃ b s', outcome (checkpoint label) s = (.ok b, s') ∧ s'.workspace = s.workspace := by
  by_cases hlatest : ∃ c, s.log.HasLatest s.workspace.files c m.exported
  · obtain ⟨c, hc⟩ := hlatest
    exact ⟨.unchanged c, s, outcome_checkpoint_of_hasLatest hm hc label, rfl⟩
  · obtain ⟨snaps, hl⟩ := hl
    rw [outcome_checkpoint_of_new hm hlog (not_exists.mp hlatest),
      CheckpointLog.append_of_new hlabel hnumber, hl]
    exact ⟨_, _, rfl, rfl⟩

/-- After a checkpoint was given in memory, another one is given as well, of whatever configuration
is active then. -/
theorem exists_checkpoint_after {snaps : NameMap Snapshot} {w : Workspace} {m' : Snapshot}
    {label' : String} {b : CheckpointOutcome} (hm : s.workspace.active = .memory m)
    (hl : s.log.store = .memory snaps) (h : outcome (checkpoint label) s = (.ok b, s'))
    (hw : w.active = .memory m') (hlabel : s'.log.hasLabel label' = false)
    (hnumber : s'.log.HasNumber) :
    ∃ b' t, outcome (checkpoint label') { s' with workspace := w } = (.ok b', t) ∧
      t.workspace = w := by
  have hshows : s.workspace.active.Shows m := hm ▸ .memory m
  have hshows' : w.active.Shows m' := hw ▸ .memory m'
  have hlog : s'.log.InMemory := by
    have htaken := taken_checkpoint hm hl label
    rw [h] at htaken
    rcases htaken.log_eq with heq | ⟨c, heq⟩
    · exact ⟨snaps, heq ▸ hl⟩
    · exact ⟨_, congrArg CheckpointLog.store heq⟩
  have hstands := stands_of_checkpoint hshows ⟨snaps, hl⟩ h
  have hlatest := (hasLatest_of_checkpoint hshows hstands (.inl ⟨snaps, hl⟩) h).1
  exact exists_checkpoint_of_free (s := { s' with workspace := w }) hshows' hlog
    (hlatest.stands hlog w.files) hlabel hnumber

/-- **What asking for a checkpoint gives.** The latest checkpoint, if it has the configuration that
is active, whatever the label is; otherwise a failure, if the label is in use; and otherwise a new
checkpoint, as long as there are ids. What is given reads as the configuration does, and is given
again. -/
theorem answers_checkpoint (hlog : s.log.Reached s.workspace.files)
    (hm : s.workspace.active.Shows m) (hkeep : s.log.CanKeep s.workspace.now m.exported)
    (label : String) : Answers m label s (outcome (checkpoint label) s) where
  unchanged c := by
    refine ⟨fun h => ?_, fun h => outcome_checkpoint_of_hasLatest hm h label⟩
    exact (hasLatest_of_checkpoint hm hlog.stands hkeep h).1
  inUse h := by
    have hasked := asked_checkpoint hm hlog.stands hkeep h label
    generalize outcome (checkpoint label) s = r at hasked ⊢
    cases hasked with
    | inUse hlabel => exact iff_of_true rfl hlabel
    | exhausted hlabel => exact iff_of_false (fun h => by cases h) (Bool.eq_false_iff.mp hlabel)
    | unwritable hlabel _ _ hencode =>
      refine iff_of_false (fun h => ?_) (Bool.eq_false_iff.mp hlabel)
      rw [Except.error.inj (congrArg Prod.fst h)] at hencode
      exact Snapshot.encode_ne_checkpointExists hencode
    | created hlabel => exact iff_of_false (fun h => by cases h) (Bool.eq_false_iff.mp hlabel)
  created h hlabel hfew hwrite := by
    have hasked := asked_checkpoint hm hlog.stands hkeep h label
    generalize outcome (checkpoint label) s = r at hasked ⊢
    cases hasked with
    | inUse hused => cases hlabel.symm.trans hused
    | exhausted _ hnumber => exact absurd (hlog.hasNumber_iff.mpr hfew) hnumber
    | unwritable _ _ hno => exact absurd hwrite hno
    | created _ _ _ hentries => exact ⟨_, rfl, hentries⟩
  refused h hlabel hfew hwrite := by
    have hasked := asked_checkpoint hm hlog.stands hkeep h label
    generalize outcome (checkpoint label) s = r at hasked ⊢
    cases hasked with
    | inUse hused => cases hlabel.symm.trans hused
    | exhausted _ hnumber => exact absurd (hlog.hasNumber_iff.mpr hfew) hnumber
    | unwritable _ _ _ hencode hlog' => exact ⟨_, _, hencode, rfl, hlog'⟩
    | created _ _ hwritten => exact absurd hwritten hwrite
  exhausted h hlabel hmany := by
    have hnumber : ¬ s.log.HasNumber := fun hn => Nat.not_lt.mpr hmany (hlog.hasNumber_iff.mp hn)
    have hasked := asked_checkpoint hm hlog.stands hkeep h label
    generalize outcome (checkpoint label) s = r at hasked ⊢
    cases hasked with
    | inUse hused => cases hlabel.symm.trans hused
    | exhausted => rfl
    | unwritable _ hn => exact absurd hn hnumber
    | created _ hn => exact absurd hn hnumber
  readable b s' h := by
    obtain ⟨⟨-, L, hL, hsame⟩, hactive⟩ := hasLatest_of_checkpoint hm hlog.stands hkeep h
    refine ⟨hactive, L, L.exported, ?_, (Storage.Shows.view L).exportAll _, ?_⟩
    · rw [outcome_snapshotOf, hL]
    · have hagrees := (Snapshot.agrees_of_same hsame).trans (Snapshot.agrees_exported m)
      exact hagrees.exported_same
  again b s' h t hlog' hfiles hactive label' := by
    obtain ⟨hlatest, hactive'⟩ := hasLatest_of_checkpoint hm hlog.stands hkeep h
    rw [← hlog', ← hfiles] at hlatest
    refine outcome_checkpoint_of_hasLatest ?_ hlatest label'
    rw [hactive, hactive']
    exact hm

end CheckpointM

/-! ### Sessions -/

/-- A log in memory with the checkpoint that comes next is reached. -/
theorem CheckpointLog.reached_with {fs : Files} {l : CheckpointLog} {snaps : NameMap Snapshot}
    {c : Checkpoint} (h : Reached fs l) (hl : l.store = .memory snaps) (hc : l.Continues c)
    (s : Snapshot) : Reached fs (l.With snaps c s) := by
  obtain ⟨hnumber, hid⟩ := nextId_eq_ok_iff.mp hc.id
  have hnext : l.next c.timestamp c.label = c := by
    rw [next, ← hid, ← hc.parent]
  have happend : l.append fs c.timestamp c.label s = (.ok c, l.With snaps c s, fs) := by
    rw [append_of_new hc.label hnumber, hl, hnext, ← hid]
    rfl
  have hreached := h.append (.inl ⟨snaps, hl⟩ : l.CanKeep c.timestamp s) c.label
  rwa [happend] at hreached

namespace Session

variable {h : Session} {s : CheckpointStorage} {m : Snapshot}

/-- Every call leaves a log that is reached. -/
theorem reached_after (hactive : h.site.workspace.InMemory) (hlog : h.site.log.InMemory)
    (hreached : h.site.log.Reached h.site.workspace.files) (calls : List Call) :
    (h.after calls).site.log.Reached (h.after calls).site.workspace.files := by
  induction calls generalizing h with
  | nil => exact hreached
  | cons call calls ih =>
    obtain ⟨hactive', hlog'⟩ := inMemory_next hactive hlog call
    obtain ⟨m, snaps, -, hs, hdone⟩ := exists_done hactive hlog call
    refine ih hactive' hlog' ?_
    rcases hdone.log with heq | ⟨c, hc, heq⟩
    · rw [heq]
      exact hreached.elsewhere hlog _
    · rw [heq]
      exact (CheckpointLog.reached_with hreached hs hc _).elsewhere ⟨_, rfl⟩ _

/-! ### An instance -/

/-- After the calls of `noting` the first label is refused, and a new one is not; then every label
gives the new checkpoint. -/
theorem answers_after_noting : ∃ c s',
    outcome (CheckpointM.checkpoint "first") (after { site := noted } noting).site
      = (.error (.checkpointExists "first"), (after { site := noted } noting).site) ∧
    outcome (CheckpointM.checkpoint "third") (after { site := noted } noting).site
      = (.ok (.created c), s') ∧
    outcome (CheckpointM.checkpoint "first") s' = (.ok (.unchanged c), s') := by
  have hactive : noted.workspace.InMemory := Workspace.inMemory_iff.mpr ⟨_, rfl⟩
  have hreached := reached_after (h := { site := noted }) hactive ⟨_, rfl⟩ (.inMemory _) noting
  obtain ⟨hactive', hlog⟩ := inMemory_after (h := { site := noted }) hactive ⟨_, rfl⟩ noting
  have hused : (after { site := noted } noting).site.log.hasLabel "first" = true := by
    decide +kernel
  have hfree : (after { site := noted } noting).site.log.hasLabel "third" = false := by
    decide +kernel
  have hlength : (after { site := noted } noting).site.log.entries.length = 2 := by
    decide +kernel
  have hfails : (outcome (CheckpointM.checkpoint "first")
      (after { site := noted } noting).site).1.isOk = false := by decide +kernel
  revert hreached hactive' hlog hused hfree hlength hfails
  generalize (after { site := noted } noting).site = site
  intro hreached hactive' hlog hused hfree hlength hfails
  obtain ⟨m, hm⟩ := Workspace.inMemory_iff.mp hactive'
  have hshows : site.workspace.active.Shows m := hm ▸ .memory m
  have hfirst := CheckpointM.answers_checkpoint hreached hshows (.inl hlog) "first"
  have hthird := CheckpointM.answers_checkpoint hreached hshows (.inl hlog) "third"
  have hnew : ∀ c, ¬ site.log.HasLatest site.workspace.files c m.exported := by
    intro c hc
    rw [(hfirst.unchanged c).mpr hc] at hfails
    cases hfails
  have hfew : site.log.entries.length + 1 < Nat.pow 2 64 := by
    rw [hlength]
    decide
  obtain ⟨s', hcreated, -⟩ := hthird.created hnew hfree hfew (hlog.canWrite _)
  exact ⟨_, s', (hfirst.inUse hnew).mpr hused, hcreated,
    hthird.again _ _ hcreated s' rfl rfl rfl "first"⟩

end Session

end Cookbook
