import Cookbook.Checkpoint.Log
import Cookbook.Import

/-!
# Checkpoints of the active configuration

The active configuration together with the log of its checkpoints. Reads through it see the active
configuration, or the checkpoint that was selected; changes through it are always changes of the
active configuration.

Going back to a checkpoint is an import of its snapshot, so extensions are installed and uninstalled
as they were. The log stays as it is.

## Main definitions

* `CheckpointStorage`, `CheckpointM`: configuration with checkpoints, and changes of it.
* `CheckpointM.checkpoint`: add a checkpoint unless nothing changed.
* `CheckpointM.select`, `CheckpointM.through`: reading as of a checkpoint.
* `CheckpointM.rollback`: go back to a checkpoint.
-/

namespace Cookbook

/-- Configuration with its checkpoints. -/
structure CheckpointStorage where
  /-- The files and the active configuration. -/
  workspace : Workspace
  /-- The log of checkpoints. -/
  log : CheckpointLog := {}
  /-- The snapshot that reads see instead of the active configuration. -/
  selected : Option Snapshot := none
  /-- Who is told the steps of going back. -/
  listeners : List ImportListener := []

/-- A change of configuration with checkpoints. -/
abbrev CheckpointM := ExceptT Error (StateM CheckpointStorage)

/-- What asking for a checkpoint gives. -/
inductive CheckpointOutcome where
  /-- A new checkpoint. -/
  | created (checkpoint : Checkpoint)
  /-- Nothing changed since the latest checkpoint, which is given. -/
  | unchanged (checkpoint : Checkpoint)
  deriving DecidableEq, Repr

namespace CheckpointOutcome

/-- The checkpoint that has the configuration as it is. -/
def checkpoint : CheckpointOutcome → Checkpoint
  | created c => c
  | unchanged c => c

/-- Whether the checkpoint is new. -/
def isCreated : CheckpointOutcome → Bool
  | created _ => true
  | unchanged _ => false

end CheckpointOutcome

namespace CheckpointM

/-! ### The active configuration -/

/-- Change the active configuration. -/
def active {α : Type} (x : ConfigM α) : CheckpointM α := do
  let s ← get
  let (r, workspace) := x.run.run s.workspace
  set { s with workspace }
  MonadExcept.ofExcept r

/-- The storage that is changed when reads see a selected snapshot. -/
def behind : Storage → Storage
  | .selecting _ active => active
  | active => active

/-- Read and change the configuration, where reads see the selected snapshot, if there is one. -/
def through {α : Type} (x : ConfigM α) : CheckpointM α := do
  let s ← get
  let shown := { s.workspace with active := .selecting s.selected s.workspace.active }
  let (r, w) := x.run.run shown
  set { s with workspace := { w with active := behind w.active } }
  MonadExcept.ofExcept r

/-! ### Checkpoints -/

/-- The snapshot of a checkpoint. -/
def snapshotOf (id : String) : CheckpointM Snapshot := do
  let s ← get
  MonadExcept.ofExcept (s.log.snapshot s.workspace.files id)

/-- Add a checkpoint to the log. -/
def append (label : String) (snapshot : Snapshot) : CheckpointM Checkpoint := do
  let s ← get
  let (r, log, files) := s.log.append s.workspace.files s.workspace.now label snapshot
  set { s with log, workspace := { s.workspace with files } }
  MonadExcept.ofExcept r

/-- Add a checkpoint of the active configuration, unless it is equal to the latest checkpoint. Only
a new checkpoint needs a label that is not in use. -/
def checkpoint (label : String) : CheckpointM CheckpointOutcome := do
  let snapshot ← active ConfigM.exportAll
  match (← get).log.latest? with
  | none => return .created (← append label snapshot)
  | some latest =>
    if (← snapshotOf latest.id).same snapshot then return .unchanged latest
    return .created (← append label snapshot)

/-- Let reads see a checkpoint, or the active configuration again. -/
def select (id : Option String) : CheckpointM Unit := do
  let selected ← id.mapM snapshotOf
  modify fun s => { s with selected }

/-- Make the active configuration equal to a source, telling the listeners. -/
def importFrom (catalog : Catalog) (source : Storage) : CheckpointM ImportSummary := do
  let s ← get
  let (r, i) := ExceptT.run (ImportM.importFrom catalog source) |>.run
    { workspace := s.workspace, listeners := s.listeners }
  set { s with workspace := i.workspace, listeners := i.listeners }
  MonadExcept.ofExcept r

/-- Go back to a checkpoint. Reads see the active configuration afterwards. -/
def rollback (catalog : Catalog) (id : String) : CheckpointM ImportSummary := do
  let summary ← importFrom catalog (.view (← snapshotOf id))
  select none
  return summary

end CheckpointM

end Cookbook
