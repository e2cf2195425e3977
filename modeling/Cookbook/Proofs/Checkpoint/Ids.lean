import Cookbook.Proofs.Checkpoint.Failing
import Cookbook.Proofs.Files.Writing

/-!
# Ids after a log has been opened

The ids of a log that is opened are what its list says, and need not be numbers. A new checkpoint
gets the number after the highest id that is one. So no checkpoint has it as its id; but numbers
have 64 bits, and when the list has the last one already, or when as many checkpoints were added as
there are numbers left, no checkpoint can be added any more.

The snapshot of a checkpoint is in a file that its id gives the name of, and an id that is no name
may lead anywhere. So a new snapshot takes the place of an old one exactly if the paths of both lead
to the same place. With ids without a separator that does not happen, but `./2` and `2` are two ids
with one file. All other snapshots are left as they are; the list of checkpoints is no snapshot,
since its name has another ending.

## Main definitions

* `CheckpointLog.Appends`: checkpoints are added to a log one after the other.

## Main results

* `CheckpointLog.Appends.spec`: the highest id after some checkpoints more.
* `CheckpointLog.exists_of_append`: what is written when a checkpoint is added.
* `CheckpointLog.id_of_appends`: when there is no id for a new checkpoint, and otherwise which, and
  what becomes of the snapshots.
-/

namespace Cookbook

namespace Text

theorem splitPieces_append_name {sep : Char} {es : List Char} (he : sep ∉ es) (cs : List Char) :
    ∃ pieces piece, splitPieces sep cs = pieces ++ [piece] ∧
      splitPieces sep (cs ++ es) = pieces ++ [piece ++ es] := by
  induction cs with
  | nil => exact ⟨[], [], rfl, splitPieces_eq_singleton he⟩
  | cons c cs ih =>
    obtain ⟨pieces, piece, hcs, hes⟩ := ih
    rw [List.cons_append, splitPieces, splitPieces, hcs, hes]
    by_cases hc : c = sep
    · rw [if_pos hc, if_pos hc]
      exact ⟨[] :: pieces, piece, rfl, rfl⟩
    · rw [if_neg hc, if_neg hc]
      cases pieces with
      | nil => exact ⟨[], c :: piece, rfl, rfl⟩
      | cons first pieces => exact ⟨(c :: first) :: pieces, piece, rfl, rfl⟩

/-- What goes on without a separator has it at the end of its last piece. -/
theorem exists_split_append_name {e : String} (he : '/' ∉ e.toList) (t : String) :
    ∃ pieces piece, split '/' (t ++ e) = pieces ++ [piece ++ e] := by
  obtain ⟨pieces, piece, -, hpieces⟩ := splitPieces_append_name he t.toList
  refine ⟨pieces.map String.ofList, String.ofList piece, ?_⟩
  rw [split, String.toList_append, hpieces, List.map_append, List.map_singleton,
    String.ofList_append, String.ofList_toList]

end Text

namespace CheckpointLog

variable {fs fs' fs₁ fs₂ : Files} {dir : Path} {l l' l₁ l₂ : CheckpointLog} {c d : Checkpoint}
  {cs : List Checkpoint} {now : Nat} {label id : String} {s : Snapshot} {place names : List String}

/-! ### Places of snapshots -/

/-- The file of a snapshot ends as its name does, whatever the id. -/
theorem exists_concat_of_locate_snapshotFile (h : fs.locate (snapshotFile dir id) = .ok place) :
    ∃ above name, place = above ++ [name ++ ".yml"] := by
  have htext : ∃ t, (snapshotFile dir id).text = t ++ ".yml" := by
    rw [snapshotFile, Path.join]
    split
    · exact ⟨id, rfl⟩
    · split
      · exact ⟨dir.text ++ id, String.append_assoc .. |>.symm⟩
      · exact ⟨dir.text ++ "/" ++ id, String.append_assoc .. |>.symm⟩
  obtain ⟨t, ht⟩ := htext
  obtain ⟨pieces, name, hsplit⟩ := Text.exists_split_append_name (e := ".yml") (by decide) t
  obtain ⟨above, hcomponents⟩ :=
    Files.components_eq_append (by rw [ht, hsplit]) (Files.ofPiece?_yml name)
  rw [Files.locate_eq h, hcomponents, List.foldl_append]
  exact ⟨_, name, rfl⟩

theorem eq_of_locate_indexFile (h : fs.locate (indexFile dir) = .ok place) :
    place = dir.components.foldl Path.Component.move fs.working ++ ["index.json"] :=
  Files.eq_of_locate_join (by decide) rfl h

/-- The list of checkpoints is not where a snapshot is. -/
theorem locate_snapshotFile_ne (h : fs.locate (indexFile dir) = .ok place) (id : String) :
    fs.locate (snapshotFile dir id) ≠ .ok place := by
  intro hid
  obtain ⟨above, name, rfl⟩ := exists_concat_of_locate_snapshotFile hid
  have hlast := (List.append_inj' (eq_of_locate_indexFile h) rfl).2
  exact snapshot_ne_index name (List.cons.inj hlast).1

/-- Snapshots of ids without a separator are at one place only if the ids are the same. -/
theorem id_eq_of_locate {id' : String} (hid : '/' ∉ id.toList) (hid' : '/' ∉ id'.toList)
    (h : fs.locate (snapshotFile dir id) = .ok place)
    (h' : fs.locate (snapshotFile dir id') = .ok place) : id = id' := by
  have hname : ∀ {id : String}, '/' ∉ id.toList → '/' ∉ (id ++ ".yml").toList := by
    intro id hid
    rw [String.toList_append, List.mem_append, not_or]
    exact ⟨hid, by decide⟩
  have heq := (Files.eq_of_locate_join (hname hid) (Files.ofPiece?_yml id) h).symm.trans
    (Files.eq_of_locate_join (hname hid') (Files.ofPiece?_yml id') h')
  have hlast := (List.cons.inj (List.append_inj' heq rfl).2).1
  exact (String.append_left_inj _).mp hlast

theorem not_mem_of_isId (h : IsId id) : '/' ∉ id.toList := by
  obtain ⟨k, -, rfl⟩ := h
  rw [Text.toList_toString]
  intro hmem
  cases Text.isDigit_of_mem_toDigits hmem

/-! ### Adding a checkpoint -/

/-- A log in a directory in which there is a list of checkpoints. -/
structure In (l : CheckpointLog) (fs : Files) (dir : Path) : Prop where
  store : l.store = .directory dir
  list : ∃ place, fs.locate (indexFile dir) = .ok place ∧ fs.tree.look place ≠ none

theorem In.starts (hl : l.In fs dir) (hid : '/' ∉ id.toList) : fs.Starts (snapshotFile dir id) := by
  obtain ⟨place, hplace, -⟩ := hl.list
  have hdir : fs.Starts dir := (Files.starts_join_iff (by decide)).mp (Files.starts_of_locate hplace)
  refine (Files.starts_join_iff ?_).mpr hdir
  rw [String.toList_append, List.mem_append, not_or]
  exact ⟨hid, by decide⟩

theorem store_of_open (h : CheckpointLog.open fs dir = .ok l) : l.store = .directory dir := by
  rw [CheckpointLog.open] at h
  split at h
  · split at h
    · cases h
    · split at h
      · cases h
        rfl
      · cases h
  · cases h
    rfl

/-- When a checkpoint is added, its snapshot and the list are written. -/
theorem exists_of_append (hl : l.In fs dir) (h : l.append fs now label s = (.ok c, l', fs')) :
    l.nextId = .ok c.id ∧ l'.entries = l.entries ++ [c] ∧ l'.In fs' dir ∧
      ∃ text fs₁ place list, s.encode = .ok text ∧
        fs.Written fs₁ (snapshotFile dir c.id) place (.text text) ∧
        fs₁.Written fs' (indexFile dir) list
          (.text (Checkpoint.listText (l.entries ++ [c]))) := by
  obtain ⟨index, hindex, hthere⟩ := hl.list
  have hmade : fs.createDirectories dir = .ok fs :=
    Files.createDirectories_of_locate_join (by decide) hindex
  rcases l.refuses_or_new label with ⟨e, hrefuses⟩ | ⟨hlabel, hnumber⟩
  · rw [hrefuses.append_eq] at h
    cases h
  · rw [append_of_new hlabel hnumber, hl.store, save, hmade] at h
    dsimp only at h
    cases htext : s.encode with
    | error e =>
      rw [htext] at h
      cases h
    | ok text =>
      rw [htext] at h
      dsimp only at h
      cases hwrite : fs.writeText (snapshotFile dir l.newId) text with
      | error e =>
        rw [hwrite] at h
        cases h
      | ok fs₁ =>
        rw [hwrite] at h
        dsimp only at h
        rw [saveIndex_eq rfl] at h
        cases hlist : fs₁.writeText (indexFile dir)
            (Checkpoint.listText (l.entries ++ [l.next now label])) with
        | error e =>
          rw [hlist] at h
          cases h
        | ok fs₂ =>
          rw [hlist] at h
          cases h
          obtain ⟨place, hplace⟩ :=
            Files.exists_written (hl.starts (not_mem_of_isId hnumber.isId)) hwrite
          have hstarts := hplace.starts (Files.starts_of_locate hindex)
          obtain ⟨list, hwritten⟩ := Files.exists_written hstarts hlist
          refine ⟨nextId_of_hasNumber hnumber, rfl, ⟨rfl, list, hwritten.locate, ?_⟩, text, fs₁,
            place, list, rfl, hplace, hwritten⟩
          rw [hwritten.look, if_pos rfl]
          exact Option.some_ne_none _

/-- Checkpoints are added one after the other. -/
inductive Appends : Files → CheckpointLog → List Checkpoint → Files → CheckpointLog → Prop
  | nil (fs : Files) (l : CheckpointLog) : Appends fs l [] fs l
  | concat {fs fs₁ fs₂ : Files} {l l₁ l₂ : CheckpointLog} {cs : List Checkpoint} {c : Checkpoint}
    {now : Nat} {label : String} {s : Snapshot} (h : Appends fs l cs fs₁ l₁)
    (happend : l₁.append fs₁ now label s = (.ok c, l₂, fs₂)) :
    Appends fs l (cs ++ [c]) fs₂ l₂

/-- A log in its directory stays there, and the highest id goes up by one each time. -/
theorem Appends.spec (h : Appends fs l cs fs₁ l₁) (hl : l.In fs dir) : l₁.In fs₁ dir ∧
    l₁.entries = l.entries ++ cs ∧ l₁.highest = l.highest + cs.length := by
  induction h with
  | nil => exact ⟨hl, (List.append_nil _).symm, rfl⟩
  | concat h happend ih =>
    obtain ⟨hl₁, hentries, hhighest⟩ := ih hl
    obtain ⟨hid, hentries₂, hl₂, -⟩ := exists_of_append hl₁ happend
    refine ⟨hl₂, by rw [hentries₂, hentries, List.append_assoc], ?_⟩
    rw [highest_concat hentries₂ hid, hhighest, List.length_append, List.length_singleton,
      Nat.add_assoc]

/-- The id that comes next is new. -/
theorem id_ne_of_nextId (hid : l.nextId = .ok id) (hd : d ∈ l.entries) : d.id ≠ id := by
  rintro rfl
  obtain ⟨hnumber, hd'⟩ := nextId_eq_ok_iff.mp hid
  have hread : Text.number64? d.id = some (l.highest + 1) := by
    rw [hd', newId, Text.number64?_toString hnumber]
  exact Nat.not_succ_le_self _ (number_le_highest hd hread)

/-! ### What becomes of the snapshots -/

/-- A snapshot whose file is where the new one is written is replaced, and any other is kept. -/
theorem readText_of_append (hl : l.In fs dir) (h : l.append fs now label s = (.ok c, l', fs'))
    {text old : String} (hs : s.encode = .ok text)
    (hold : fs.readText (snapshotFile dir id) = .ok old) :
    fs'.readText (snapshotFile dir id) = .ok (if fs'.locate (snapshotFile dir id)
      = fs'.locate (snapshotFile dir c.id) then text else old) ∧
    ('/' ∉ id.toList →
      (fs'.locate (snapshotFile dir id) = fs'.locate (snapshotFile dir c.id) ↔ id = c.id)) := by
  obtain ⟨hnext, -, -, text', fs₁, place, list, htext, hwritten, hlist⟩ := exists_of_append hl h
  cases hs.symm.trans htext
  -- where the two files are, after the snapshot and after the list has been written
  obtain ⟨names, hnames, hlook⟩ := Files.readText_eq_ok_iff.mp hold
  have hnames₁ := hwritten.locate_of_look hnames (by rw [hlook]; exact Option.some_ne_none _)
  have hthere₁ : fs₁.tree.look names ≠ none := by
    rw [hwritten.look]
    split
    · exact Option.some_ne_none _
    · rw [hlook]
      exact Option.some_ne_none _
  have hnames' := hlist.locate_of_look hnames₁ hthere₁
  have hplace' := hlist.locate_of_look hwritten.locate (by
    rw [hwritten.look, if_pos rfl]
    exact Option.some_ne_none _)
  constructor
  · rw [hlist.readText (hwritten.readText hold), hnames₁, hwritten.locate, hlist.locate, hnames',
      hplace', if_neg]
    rintro heq
    exact locate_snapshotFile_ne hlist.locate id (hnames'.trans heq)
  · intro hid
    rw [hnames', hplace']
    constructor
    · intro heq
      obtain ⟨hnumber, hnew⟩ := nextId_eq_ok_iff.mp hnext
      have hisId : IsId c.id := hnew ▸ hnumber.isId
      exact id_eq_of_locate hid (not_mem_of_isId hisId) hnames' (heq ▸ hplace')
    · rintro rfl
      exact hnames'.symm.trans hplace'

/-- **The ids after a log has been opened.** After any checkpoints that were added, the number for
another one is that after the highest id of the list, counted on with each of them. If it has more
than 64 bits there is no id, and that is the only reason why there is none. Otherwise the id is this
number, and no checkpoint has it. A snapshot is replaced by the new one exactly if its file is in
the same place, which does not happen with ids that are names. -/
theorem id_of_appends (hfile : fs.isFile (indexFile dir) = true)
    (hopen : CheckpointLog.open fs dir = .ok l) (hrun : Appends fs l cs fs₁ l₁) :
    (∀ now label s, (l₁.append fs₁ now label s).1 = .error .idsExhausted ↔
      l₁.hasLabel label = false ∧ Nat.pow 2 64 ≤ l.highest + cs.length + 1) ∧
    ∀ now label s c l₂ fs₂, l₁.append fs₁ now label s = (.ok c, l₂, fs₂) →
      l₂.entries = l.entries ++ cs ++ [c] ∧
      l.highest + cs.length + 1 < Nat.pow 2 64 ∧ c.id = toString (l.highest + cs.length + 1) ∧
      (∀ d ∈ l.entries ++ cs, d.id ≠ c.id) ∧
      ∃ text, s.encode = .ok text ∧ ∀ d ∈ l.entries ++ cs, ∀ old,
        fs₁.readText (snapshotFile dir d.id) = .ok old →
        fs₂.readText (snapshotFile dir d.id) = .ok (if fs₂.locate (snapshotFile dir d.id)
          = fs₂.locate (snapshotFile dir c.id) then text else old) ∧
        ('/' ∉ d.id.toList →
          fs₂.locate (snapshotFile dir d.id) ≠ fs₂.locate (snapshotFile dir c.id)) := by
  have hl : l.In fs dir := by
    obtain ⟨place, content, hplace, hget⟩ := Files.exists_of_isFile hfile
    refine ⟨store_of_open hopen, place, hplace, ?_⟩
    rw [FileTree.look_eq_file_iff.mpr hget]
    exact Option.some_ne_none _
  obtain ⟨hl₁, hentries, hhighest⟩ := hrun.spec hl
  refine ⟨fun now label s => ?_, fun now label s c l₂ fs₂ happend => ?_⟩
  · rw [append_exhausted_iff, HasNumber, hhighest, Nat.not_lt]
  · obtain ⟨hnext, hentries₂, -, text, -, -, -, htext, -⟩ := exists_of_append hl₁ happend
    obtain ⟨hnumber, hid⟩ := nextId_eq_ok_iff.mp hnext
    rw [HasNumber, hhighest] at hnumber
    rw [newId, hhighest] at hid
    have hnew : ∀ d ∈ l.entries ++ cs, d.id ≠ c.id :=
      fun d hd => id_ne_of_nextId hnext (hentries ▸ hd)
    refine ⟨by rw [hentries₂, hentries], hnumber, hid, hnew, text, htext, fun d hd old hold => ?_⟩
    obtain ⟨hread, hsame⟩ := readText_of_append hl₁ happend htext hold
    exact ⟨hread, fun hname heq => hnew d hd ((hsame hname).mp heq)⟩

/-! ### Instances -/

/-- A directory with a list in which the last number is taken. -/
def exhaustedFiles : Files := { tree := .dir [("cp", .dir [
  ("index.json", .file (.text "[[\"18446744073709551615\", \"last\", 0, null]]"))])] }

/-- The log that is opened there. -/
def exhaustedLog : CheckpointLog where
  entries := [⟨"18446744073709551615", "last", 0, none⟩]
  store := .directory ⟨"/cp"⟩

/-- A directory with a list in which one id is another way to lead to the file of the next one. -/
def respelledFiles : Files := { tree := .dir [("cp", .dir [
  ("2.yml", .file (.text "'': \x7b\x7d\n")),
  ("index.json", .file (.text ("[[\"1\", \"first\", 0, null], " ++
    "[\"./2\", \"second\", 0, \"1\"]]")))])] }

/-- The log that is opened there. -/
def respelledLog : CheckpointLog where
  entries := [⟨"1", "first", 0, none⟩, ⟨"./2", "second", 0, some "1"⟩]
  store := .directory ⟨"/cp"⟩

/-- A log that is opened from a list, by its entries. -/
theorem open_eq_of_entries {entries : List Checkpoint}
    (h : (CheckpointLog.open fs dir).toOption.map (·.entries) = some entries) :
    CheckpointLog.open fs dir = .ok { entries, store := .directory dir } := by
  cases hopen : CheckpointLog.open fs dir with
  | error e =>
    rw [hopen] at h
    cases h
  | ok l =>
    rw [hopen] at h
    cases h
    rw [← store_of_open hopen]

/-- Where the last number is taken there is no id for another checkpoint. The next id after `./2`
is new, but the snapshot of the new checkpoint takes the place of one that was there. -/
theorem id_of_unusualLists :
    (exhaustedFiles.isFile (indexFile ⟨"/cp"⟩) = true ∧
      CheckpointLog.open exhaustedFiles ⟨"/cp"⟩ = .ok exhaustedLog ∧
      (exhaustedLog.append exhaustedFiles 0 "next" NameMap.empty).1 = .error .idsExhausted) ∧
    (respelledFiles.isFile (indexFile ⟨"/cp"⟩) = true ∧
      CheckpointLog.open respelledFiles ⟨"/cp"⟩ = .ok respelledLog) ∧
    ∃ c l₂ fs₂, respelledLog.append respelledFiles 0 "next" NameMap.empty = (.ok c, l₂, fs₂) ∧
      c.id = "2" ∧ (∀ d ∈ respelledLog.entries, d.id ≠ c.id) ∧
      respelledFiles.readText (snapshotFile ⟨"/cp"⟩ "./2") = .ok "'': \x7b\x7d\n" ∧
      fs₂.readText (snapshotFile ⟨"/cp"⟩ "./2") = .ok "\x7b\x7d\n" := by
  have hfile : exhaustedFiles.isFile (indexFile ⟨"/cp"⟩) = true := by decide +kernel
  have hopen : CheckpointLog.open exhaustedFiles ⟨"/cp"⟩ = .ok exhaustedLog :=
    open_eq_of_entries (by decide +kernel)
  have hlast : exhaustedLog.highest = Nat.pow 2 64 - 1 := by decide +kernel
  have hfile' : respelledFiles.isFile (indexFile ⟨"/cp"⟩) = true := by decide +kernel
  have hopen' : CheckpointLog.open respelledFiles ⟨"/cp"⟩ = .ok respelledLog :=
    open_eq_of_entries (by decide +kernel)
  obtain ⟨hexhausted, -⟩ := id_of_appends hfile hopen (.nil exhaustedFiles exhaustedLog)
  obtain ⟨-, hadded⟩ := id_of_appends hfile' hopen' (.nil respelledFiles respelledLog)
  refine ⟨⟨hfile, hopen, (hexhausted 0 "next" NameMap.empty).mpr ⟨by decide, ?_⟩⟩,
    ⟨hfile', hopen'⟩, ?_⟩
  · rw [hlast]
    decide
  · have hmade : ∃ c, (respelledLog.append respelledFiles 0 "next" NameMap.empty).1 = .ok c ∧
        c.id = "2" := by decide +kernel
    have hold : ∃ old, respelledFiles.readText (snapshotFile ⟨"/cp"⟩ "./2") = .ok old ∧
        old = "'': \x7b\x7d\n" := by decide +kernel
    have htext : ∃ text, Snapshot.encode NameMap.empty = .ok text ∧ text = "\x7b\x7d\n" := by
      decide +kernel
    have hplaces : (respelledLog.append respelledFiles 0 "next" NameMap.empty).2.2.locate
          (snapshotFile ⟨"/cp"⟩ "./2")
        = (respelledLog.append respelledFiles 0 "next" NameMap.empty).2.2.locate
          (snapshotFile ⟨"/cp"⟩ "2") := by decide +kernel
    rcases happend : respelledLog.append respelledFiles 0 "next" NameMap.empty with ⟨r, l₂, fs₂⟩
    rw [happend] at hmade hplaces
    obtain ⟨c, rfl, hid⟩ := hmade
    obtain ⟨old, hold, rfl⟩ := hold
    obtain ⟨text, htext, rfl⟩ := htext
    have hsecond : (⟨"./2", "second", 0, some "1"⟩ : Checkpoint) ∈ respelledLog.entries :=
      List.mem_cons_of_mem _ List.mem_cons_self
    obtain ⟨-, -, -, hnew, text, htext', hkept⟩ := hadded _ _ _ _ _ _ happend
    rw [List.append_nil] at hnew hkept
    cases htext.symm.trans htext'
    obtain ⟨hread, -⟩ := hkept _ hsecond _ hold
    refine ⟨c, l₂, fs₂, rfl, hid, hnew, hold, ?_⟩
    rw [hread, hid, if_pos hplaces]

end CheckpointLog

end Cookbook
