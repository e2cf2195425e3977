import Cookbook.Proofs.Checkpoint.Numbering
import Cookbook.Proofs.Files.Making
import Cookbook.Proofs.Json.Reading

/-!
# A log in its directory

A directory has the list of checkpoints in one file and each snapshot in a file of its own. What the
list is read as again are the same checkpoints, times included, since a time is a number of 64 bits.
The snapshots are written by the printer and read by the reader of configuration; that they come
back equal is a matter of these two, and is asked of a snapshot here as `Snapshot.ReadsBack`.

`CheckpointLog.Filed` says that all of a log is in a directory: its list, if it has been written,
and for every checkpoint a file that is read as a snapshot equal to the one of its id in memory.
Then the log that is opened from the directory is the log itself.

## Main definitions

* `Snapshot.ReadsBack`: a snapshot comes back equal from its text, if it has one.
* `CheckpointLog.Filed`: a directory has checkpoints and their snapshots.

## Main results

* `Checkpoint.parse?_listText`: the list of checkpoints is read as it was written.
* `CheckpointLog.Filed.open_eq`: the log that is opened has the checkpoints that were filed.
* `CheckpointLog.Filed.exists_append`: a checkpoint that can be written is filed.
* `CheckpointLog.append_of_encode_error`: and one that cannot is refused.
-/

namespace Cookbook

/-! ### The list of checkpoints -/

namespace Checkpoint

variable {c : Checkpoint} {cs : List Checkpoint}

theorem ofJson?_toJson (h : c.timestamp < Nat.pow 2 64) : ofJson? c.toJson = some c := by
  obtain ⟨id, label, timestamp, parent⟩ := c
  have htime : timeOf? (.natural timestamp) = some timestamp := if_pos h
  cases parent <;> simp [toJson, ofJson?, field?, stringOf?, parentOf?, htime]

theorem readable_toJson (c : Checkpoint) : c.toJson.Readable := by
  refine Json.readable_object fun f hf => ?_
  simp only [List.mem_cons, List.not_mem_nil, or_false] at hf
  rcases hf with rfl | rfl | rfl | rfl
  · exact Json.readable_string _
  · exact Json.readable_string _
  · exact Json.readable_natural _
  · cases c.parent with
    | none => exact Json.readable_null
    | some p => exact Json.readable_string p

theorem listOfJson?_map_toJson (h : ∀ c ∈ cs, c.timestamp < Nat.pow 2 64) :
    listOfJson? (.array (cs.map toJson)) = some cs := by
  rw [listOfJson?]
  induction cs with
  | nil => rfl
  | cons c cs ih =>
    obtain ⟨hc, hcs⟩ := List.forall_mem_cons.mp h
    rw [List.map_cons, List.mapM_cons, ofJson?_toJson hc, ih hcs]
    rfl

/-- The text of a list of checkpoints. -/
def listText (cs : List Checkpoint) : String := (Json.array (cs.map toJson)).pretty 0

/-- Checkpoints are read as they were listed. -/
theorem parse?_listText (h : ∀ c ∈ cs, c.timestamp < Nat.pow 2 64) :
    (Json.parse? (listText cs)).bind listOfJson? = some cs := by
  have hread : (Json.array (cs.map toJson)).Readable := by
    refine Json.readable_array fun j hj => ?_
    obtain ⟨c, -, rfl⟩ := List.mem_map.mp hj
    exact c.readable_toJson
  rw [listText, Json.parse?_pretty hread, Option.bind_some, listOfJson?_map_toJson h]

end Checkpoint

/-! ### Names of files -/

namespace CheckpointLog

variable {fs : Files} {id : String}

/-- The ids of a log: numbers of 64 bits. -/
def IsId (id : String) : Prop := ∃ k < Nat.pow 2 64, id = toString k

theorem HasNumber.isId {l : CheckpointLog} (h : l.HasNumber) : IsId l.newId := ⟨_, h, rfl⟩

/-- Names may be as long as those of the files of a log. -/
def HasRoom (fs : Files) : Prop := ∀ limit ∈ fs.nameLimit, 24 ≤ limit

theorem isName_of_hasRoom (h : HasRoom fs) {n : String} (hn : n.utf8ByteSize ≤ 24) :
    fs.isName n = true := by
  rw [Files.isName, Option.all_eq_true]
  exact fun limit hlimit => decide_eq_true (Nat.le_trans hn (h limit hlimit))

theorem admits_index (h : HasRoom fs) : fs.Admits "index.json" :=
  ⟨rfl, ⟨by decide, by decide⟩, isName_of_hasRoom h (by decide)⟩

theorem admits_snapshot (h : HasRoom fs) (hid : IsId id) : fs.Admits (id ++ ".yml") := by
  obtain ⟨k, hk, rfl⟩ := hid
  have hdigits : ∀ d ∈ (toString k).toList, d.isDigit = true := by
    rw [Text.toList_toString]
    exact fun _ => Text.isDigit_of_mem_toDigits
  have hslash : '/' ∉ (toString k).toList := fun hmem => by cases hdigits _ hmem
  have hnul : Char.ofNat 0 ∉ (toString k).toList := fun hmem => by cases hdigits _ hmem
  refine ⟨Files.ofPiece?_yml _, ⟨?_, ?_⟩, isName_of_hasRoom h ?_⟩
  · rw [String.toList_append, List.mem_append, not_or]
    exact ⟨hslash, by decide⟩
  · rw [String.toList_append, List.mem_append, not_or]
    exact ⟨hnul, by decide⟩
  · have hsize := Text.utf8ByteSize_toString_le hk
    rw [String.utf8ByteSize_append]
    exact Nat.add_le_add_right hsize 4

theorem snapshot_ne_index (id : String) : id ++ ".yml" ≠ "index.json" := by
  intro h
  have hlast := congrArg (fun s => s.toList.getLast?) h
  simp at hlast

end CheckpointLog

/-! ### What a directory keeps -/

/-- What a text is read as is equal to a snapshot. -/
def Snapshot.IsReadFrom (s : Snapshot) (text : String) : Prop :=
  ∃ s', decode text = .ok s' ∧ s'.same s = true

/-- A snapshot is read from its text, if it has one. -/
def Snapshot.ReadsBack (s : Snapshot) : Prop := ∀ text, encode s = .ok text → s.IsReadFrom text

namespace CheckpointLog

variable {fs : Files} {dir : Path} {place : List String} {t : FileTree} {l : CheckpointLog}
  {snaps : NameMap Snapshot} {entries : List Checkpoint} {s : Snapshot} {label text : String}

/-- The checkpoint that comes next. -/
def next (l : CheckpointLog) (now : Nat) (label : String) : Checkpoint :=
  { id := l.newId, label, timestamp := now, parent := l.latest?.map (·.id) }

/-- With a label that is not in use and an id for it, a checkpoint is added in two steps. -/
theorem append_of_new (hlabel : l.hasLabel label = false) (hnumber : l.HasNumber) {now : Nat} :
    l.append fs now label s = match save fs l.newId s l.store with
      | (.error e, store, fs) => (.error e, { l with store }, fs)
      | (.ok (), store, fs) =>
        let l' := { entries := l.entries ++ [l.next now label], store }
        match saveIndex fs l' with
        | .error e => (.error e, l', fs)
        | .ok fs => (.ok (l.next now label), l', fs) := by
  rw [append, hlabel, if_neg Bool.false_ne_true, nextId_of_hasNumber hnumber]
  rfl

/-- A directory has the list of checkpoints, unless there are none, and their snapshots. -/
structure Filed (t : FileTree) (entries : List Checkpoint) (snaps : NameMap Snapshot) : Prop where
  flat : ∀ n, t.look [n] ≠ some none
  list : t.look ["index.json"]
    = if entries = [] then none else some (some (.text (Checkpoint.listText entries)))
  isId : ∀ c ∈ entries, IsId c.id
  time : ∀ c ∈ entries, c.timestamp < Nat.pow 2 64
  snapshot : ∀ c ∈ entries, ∃ s text, snaps.get? c.id = some s ∧
    t.look [c.id ++ ".yml"] = some (some (.text text)) ∧ s.IsReadFrom text

theorem filed_empty : Filed (.dir []) [] NameMap.empty where
  flat n := by simp [FileTree.look_empty]
  list := FileTree.look_empty (by simp)
  isId := by simp
  time := by simp
  snapshot := by simp

namespace Filed

/-- The log that is opened has the checkpoints of the list. -/
theorem open_eq (h : Filed t entries snaps) (hroom : HasRoom fs) (hseat : fs.Seat dir place t) :
    CheckpointLog.open fs dir = .ok { entries, store := .directory dir } := by
  have hadmits := admits_index hroom
  rw [CheckpointLog.open, indexFile, hseat.isFile_eq hadmits (h.flat _), h.list]
  by_cases hnone : entries = []
  · rw [if_pos hnone, hnone]
    rfl
  · have hlist := h.list
    rw [if_neg hnone] at hlist ⊢
    rw [hseat.readText hadmits hlist]
    simp [Checkpoint.parse?_listText h.time]

/-- A snapshot that was saved is read from its file. -/
theorem exists_readText (h : Filed t entries snaps) (hroom : HasRoom fs)
    (hseat : fs.Seat dir place t) {c : Checkpoint} (hc : c ∈ entries) :
    ∃ s text, snaps.get? c.id = some s ∧ fs.readText (snapshotFile dir c.id) = .ok text ∧
      s.IsReadFrom text := by
  obtain ⟨s, text, hs, hlook, hread⟩ := h.snapshot c hc
  exact ⟨s, text, hs, hseat.readText (admits_snapshot hroom (h.isId c hc)) hlook, hread⟩

/-- A checkpoint more: its snapshot and the new list are written. -/
theorem put {t' t'' : FileTree} (h : Filed t entries snaps) {c : Checkpoint} (hid : IsId c.id)
    (htime : c.timestamp < Nat.pow 2 64) (hread : s.IsReadFrom text)
    (hsnapshot : ∀ n, t'.look [n]
      = if n = c.id ++ ".yml" then some (some (.text text)) else t.look [n])
    (hlist : ∀ n, t''.look [n] = if n = "index.json"
      then some (some (.text (Checkpoint.listText (entries ++ [c])))) else t'.look [n]) :
    Filed t'' (entries ++ [c]) (snaps.insert c.id s) where
  flat n := by
    rw [hlist, hsnapshot]
    split
    · simp
    · split
      · simp
      · exact h.flat n
  list := by simp [hlist]
  isId := by simpa [or_imp, forall_and] using ⟨h.isId, hid⟩
  time := by simpa [or_imp, forall_and] using ⟨h.time, htime⟩
  snapshot d hd := by
    have hname : d.id ++ ".yml" = c.id ++ ".yml" ↔ d.id = c.id := String.append_left_inj _
    rw [NameMap.get?_insert, hlist, if_neg (snapshot_ne_index _), hsnapshot]
    by_cases heq : d.id = c.id
    · exact ⟨s, text, by rw [if_pos heq.symm], by rw [if_pos (hname.mpr heq)], hread⟩
    · rw [if_neg fun h => heq (hname.mp h), if_neg fun h => heq h.symm]
      rcases List.mem_append.mp hd with hd | hd
      · exact h.snapshot d hd
      · exact absurd (congrArg Checkpoint.id (List.mem_singleton.mp hd)) heq

/-- A checkpoint that can be written is filed with its snapshot. -/
theorem exists_append (h : Filed t l.entries snaps) (hroom : HasRoom fs)
    (hseat : fs.Seat dir place t) (hstore : l.store = .directory dir)
    (hlabel : l.hasLabel label = false) (hnumber : l.HasNumber) (hs : s.encode = .ok text)
    (hread : s.IsReadFrom text) (now : UInt64) :
    ∃ fs' t', l.append fs now.toNat label s = (.ok (l.next now.toNat label),
        { entries := l.entries ++ [l.next now.toNat label], store := .directory dir }, fs') ∧
      HasRoom fs' ∧ fs'.Seat dir place t' ∧
      Filed t' (l.entries ++ [l.next now.toNat label]) (snaps.insert l.newId s) := by
  obtain ⟨fs₁, t₁, hwrite, hseat₁, hlimit₁, hlook₁⟩ :=
    hseat.exists_writeText (admits_snapshot hroom hnumber.isId) (h.flat _) text
  have hroom₁ : HasRoom fs₁ := by rwa [HasRoom, hlimit₁]
  have hflat₁ : t₁.look ["index.json"] ≠ some none := by
    rw [hlook₁, if_neg (snapshot_ne_index _).symm]
    exact h.flat _
  obtain ⟨fs₂, t₂, hindex, hseat₂, hlimit₂, hlook₂⟩ := hseat₁.exists_writeText (admits_index hroom₁)
    hflat₁ (Checkpoint.listText (l.entries ++ [l.next now.toNat label]))
  refine ⟨fs₂, t₂, ?_, by rwa [HasRoom, hlimit₂], hseat₂,
    h.put hnumber.isId now.toNat_lt hread hlook₁ hlook₂⟩
  have hsave : save fs l.newId s l.store = (.ok (), .directory dir, fs₁) := by
    rw [hstore, save, hseat.createDirectories_eq, hs]
    dsimp only
    rw [snapshotFile, hwrite]
  have hlist : saveIndex fs₁
      { entries := l.entries ++ [l.next now.toNat label], store := .directory dir } = .ok fs₂ := by
    rw [Checkpoint.listText] at hindex
    simp only [saveIndex, indexFile, hindex]
  rw [append_of_new hlabel hnumber, hsave]
  dsimp only
  rw [hlist]

end Filed

/-- A checkpoint that cannot be written is refused. -/
theorem append_of_encode_error (hseat : fs.Seat dir place t) (hstore : l.store = .directory dir)
    (hlabel : l.hasLabel label = false) (hnumber : l.HasNumber) {e : Error}
    (hs : s.encode = .error e) (now : Nat) : l.append fs now label s = (.error e, l, fs) := by
  have hsave : save fs l.newId s l.store = (.error e, l.store, fs) := by
    rw [hstore, save, hseat.createDirectories_eq, hs]
  rw [append_of_new hlabel hnumber, hsave]

end CheckpointLog

end Cookbook
