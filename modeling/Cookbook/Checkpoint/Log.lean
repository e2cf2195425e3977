import Cookbook.ConfigObject
import Cookbook.Files
import Cookbook.Json.Parser
import Cookbook.Text.Number

/-!
# The log of checkpoints

A checkpoint is a labelled snapshot of the configuration. Checkpoints form a log that only grows:
ids are numbers in order, and each checkpoint knows the one before it. Numbers have 64 bits; after
the last one no checkpoint can be added.

A log is kept in memory or in a directory, which has the list of checkpoints in `index.json` and
the snapshot of each in `<id>.yml`.

## Main definitions

* `Checkpoint`, `CheckpointLog`: a checkpoint and the log.
* `CheckpointLog.open`: the log of a directory.
* `CheckpointLog.append`: add a checkpoint.
* `CheckpointLog.snapshot`: what was saved.
-/

namespace Cookbook

/-- An entry of the log. -/
structure Checkpoint where
  /-- Its id. -/
  id : String
  /-- Its label. -/
  label : String
  /-- When it was made, in seconds. -/
  timestamp : Nat
  /-- The id of the checkpoint before it. -/
  parent : Option String
  deriving DecidableEq, Repr, Inhabited

/-- Where the snapshots of a log are. -/
inductive SnapshotStore where
  /-- In memory, by the id of the checkpoint. -/
  | memory (snapshots : NameMap Snapshot)
  /-- In a directory. -/
  | directory (path : Path)

/-- The checkpoints, oldest first, and their snapshots. -/
structure CheckpointLog where
  /-- The checkpoints, oldest first. -/
  entries : List Checkpoint := []
  /-- Where their snapshots are. -/
  store : SnapshotStore := .memory NameMap.empty

namespace Checkpoint

/-! ### Form in files -/

/-- A checkpoint as it is listed. -/
def toJson (c : Checkpoint) : Json :=
  .object [("id", .string c.id), ("label", .string c.label), ("timestamp", .natural c.timestamp),
    ("parent", match c.parent with
      | some p => .string p
      | none => .null)]

/-- A string field. -/
def stringOf? : Json → Option String
  | .string s => some s
  | _ => none

/-- A time: a natural number of 64 bits. -/
def timeOf? : Json → Option Nat
  | .natural n => if n < Nat.pow 2 64 then some n else none
  | _ => none

/-- A parent: a string or null. -/
def parentOf? : Json → Option (Option String)
  | .null => some none
  | .string s => some (some s)
  | _ => none

/-- The value of a field that is there once at most. -/
def field? (fields : List (String × Json)) (name : String) : Option (Option Json) :=
  match fields.filter (fun f => f.1 == name) with
  | [] => some none
  | [f] => some (some f.2)
  | _ => none

/-- A checkpoint from its listing, which is an object or an array of the fields in order. Other
fields of an object have no meaning, and the parent may be left out. -/
def ofJson? : Json → Option Checkpoint
  | .object fields => do
    let id ← (← field? fields "id").bind stringOf?
    let label ← (← field? fields "label").bind stringOf?
    let timestamp ← (← field? fields "timestamp").bind timeOf?
    let parent ← match ← field? fields "parent" with
      | some j => parentOf? j
      | none => some none
    return { id, label, timestamp, parent }
  | .array [id, label, timestamp, parent] => do
    return {
      id := ← stringOf? id, label := ← stringOf? label
      timestamp := ← timeOf? timestamp, parent := ← parentOf? parent }
  | _ => none

/-- The checkpoints of a list. -/
def listOfJson? : Json → Option (List Checkpoint)
  | .array items => items.mapM ofJson?
  | _ => none

end Checkpoint

/-! ### Snapshots in files -/

namespace Snapshot

/-- The text of a snapshot. -/
def encode (s : Snapshot) : Except Error String :=
  let objects (os : Objects) : Value :=
    (Mapping.ofNames (os.mapValues fun _ o => o.toValue).entries).toValue
  match Yaml.print (Mapping.ofNames (s.mapValues fun _ os => objects os).entries).toValue with
  | .ok t => .ok t
  | .error e => .error (.ofYaml e)

/-- The snapshot of a text. -/
def decode (t : String) : Except Error Snapshot :=
  match Yaml.readAs (Yaml.DecodeM.nameMap (Yaml.DecodeM.nameMap Yaml.DecodeM.mapping)) t with
  | .ok s => .ok s
  | .error e => .error (.ofYaml e)

end Snapshot

namespace CheckpointLog

/-! ### Questions -/

/-- The file with the list of checkpoints. -/
def indexFile (dir : Path) : Path := dir.join "index.json"

/-- The file with the snapshot of a checkpoint. -/
def snapshotFile (dir : Path) (id : String) : Path := dir.join (id ++ ".yml")

/-- The log of a directory; without a list of checkpoints it is empty. -/
def «open» (fs : Files) (dir : Path) : Except Error CheckpointLog :=
  if fs.isFile (indexFile dir) then
    match fs.readText (indexFile dir) with
    | .error e => .error (.ofFile e)
    | .ok s =>
      match (Json.parse? s).bind Checkpoint.listOfJson? with
      | some entries => .ok { entries, store := .directory dir }
      | none => .error (.json "the list of checkpoints is malformed")
  else .ok { store := .directory dir }

/-- The directory of the log, if it has one. -/
def directory? (l : CheckpointLog) : Option Path :=
  match l.store with
  | .memory _ => none
  | .directory dir => some dir

/-- The latest checkpoint. -/
def latest? (l : CheckpointLog) : Option Checkpoint := l.entries.getLast?

/-- The checkpoint of an id. -/
def get (l : CheckpointLog) (id : String) : Except Error Checkpoint :=
  match l.entries.find? (·.id == id) with
  | some c => .ok c
  | none => .error (.unknownCheckpoint id)

/-- Whether a label is in use. -/
def hasLabel (l : CheckpointLog) (label : String) : Bool := l.entries.any (·.label == label)

/-- The highest id that is a number; 0 if there is none. -/
def highest (l : CheckpointLog) : Nat :=
  (l.entries.filterMap fun c => Text.number64? c.id).foldl max 0

/-- The id after the highest one, unless the sum overflows. -/
def nextId (l : CheckpointLog) : Except Error String :=
  if l.highest + 1 < Nat.pow 2 64 then .ok (toString (l.highest + 1)) else .error .idsExhausted

/-- The snapshot of a checkpoint. -/
def snapshot (fs : Files) (l : CheckpointLog) (id : String) : Except Error Snapshot := do
  if l.entries.isEmpty then throw .noCheckpoints
  let c ← l.get id
  match l.store with
  | .memory snapshots =>
    match snapshots.get? c.id with
    | some s => return s
    | none => throw (.unknownCheckpoint id)
  | .directory dir =>
    match fs.readText (snapshotFile dir c.id) with
    | .error e => throw (.ofFile e)
    | .ok s => Snapshot.decode s

/-- The snapshot of the latest checkpoint, if there is one. -/
def latestSnapshot (fs : Files) (l : CheckpointLog) : Except Error (Option Snapshot) :=
  match l.latest? with
  | none => .ok none
  | some c => some <$> l.snapshot fs c.id

/-! ### Adding -/

/-- Save the snapshot of a checkpoint. -/
def save (fs : Files) (id : String) (s : Snapshot) :
    SnapshotStore → Except Error Unit × SnapshotStore × Files
  | .memory snapshots => (.ok (), .memory (snapshots.insert id s), fs)
  | .directory dir =>
    match fs.createDirectories dir with
    | .error e => (.error (.ofFile e), .directory dir, fs)
    | .ok fs =>
      match Snapshot.encode s with
      | .error e => (.error e, .directory dir, fs)
      | .ok t =>
        match fs.writeText (snapshotFile dir id) t with
        | .error e => (.error (.ofFile e), .directory dir, fs)
        | .ok fs => (.ok (), .directory dir, fs)

/-- Write the list of checkpoints of a log in a directory. -/
def saveIndex (fs : Files) (l : CheckpointLog) : Except Error Files :=
  match l.store with
  | .memory _ => .ok fs
  | .directory dir =>
    let list : Json := .array (l.entries.map Checkpoint.toJson)
    match fs.writeText (indexFile dir) (list.pretty 0) with
    | .ok fs => .ok fs
    | .error e => .error (.ofFile e)

/-- Add a checkpoint with a snapshot; its label may not be in use, and there has to be an id for it.
When only the list of checkpoints cannot be written, the log has the checkpoint all the same. -/
def append (fs : Files) (now : Nat) (label : String) (s : Snapshot) (l : CheckpointLog) :
    Except Error Checkpoint × CheckpointLog × Files :=
  if l.hasLabel label then (.error (.checkpointExists label), l, fs)
  else
    match l.nextId with
    | .error e => (.error e, l, fs)
    | .ok id =>
      let c : Checkpoint := { id, label, timestamp := now, parent := l.latest?.map (·.id) }
      match save fs c.id s l.store with
      | (.error e, store, fs) => (.error e, { l with store }, fs)
      | (.ok (), store, fs) =>
        let l := { entries := l.entries ++ [c], store }
        match saveIndex fs l with
        | .error e => (.error e, l, fs)
        | .ok fs => (.ok c, l, fs)

end CheckpointLog

end Cookbook
