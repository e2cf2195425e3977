import Cookbook.Proofs.Storage.Editing
import Cookbook.Proofs.Storage.Filing
import Cookbook.Proofs.Yaml.Writable

/-!
# A directory holds objects as memory does

The same changes are made in a directory and in memory, on the collections they name and one after
the other, whether or not one of them fails. All of them give the same, and afterwards both storages
give the same answers: nothing is lost when a collection shares its path with another one, when its
directory stays without objects, or when names have dots.

What is in the directory is what its files are read as. So the objects have to come back equal, and
they have to do so again after they were renamed, which reads and writes them. `ReadsBack` asks this
of a family of objects, for all that can be written. An object that cannot be written is the one
difference: memory takes it and a directory does not. `Edit.checked` is the change of memory that
refuses it too.

## The invariant

`Workspace.Twins` relates the two workspaces through the snapshot `d` that the directory mirrors: its
objects are equal to those in memory, belong to the family and can be written. Every change keeps it
and gives the same on both sides, and the answers follow from it.

## Main definitions

* `ReadsBack`: objects that are read as equal ones when they were written.
* `Edit.checked`: a change that refuses an object that cannot be written.
* `Edit.performAll`: changes one after the other, with what each of them gives.
* `Storage.AnswersAlike`: two storages give the same answers.

## Main results

* `Edit.matches_perform`: one change on both sides.
* `Edit.directory_as_memory`: any changes of an empty directory and of an empty storage in memory.
-/

namespace Cookbook

open Change

/-- Objects of a family are read as equal ones of the family once they were written. -/
def ReadsBack (Q : ConfigObject → Prop) : Prop :=
  ∀ o text, Q o → ConfigObject.encode o = .ok text →
    ∃ p, ConfigObject.decode text = .ok p ∧ p.same o = true ∧ Q p

/-- Objects of a family that can be written. -/
def Writable (Q : ConfigObject → Prop) (o : ConfigObject) : Prop :=
  Q o ∧ ∃ text, ConfigObject.encode o = .ok text

theorem ReadsBack.exists_decode {Q : ConfigObject → Prop} (hQ : ReadsBack Q) {o : ConfigObject}
    {text : String} (ho : Q o) (htext : ConfigObject.encode o = .ok text) :
    ∃ p, ConfigObject.decode text = .ok p ∧ p.same o = true ∧ Writable Q p := by
  obtain ⟨p, hp, hsame, hQp⟩ := hQ o text ho htext
  exact ⟨p, hp, hsame, hQp, ConfigObject.exists_encode_of_same hsame ⟨text, htext⟩⟩

namespace ConfigM

open Storage

variable {w : Workspace} {dir : Path} {d : Snapshot} {c : Option String} {name newName : String}
  {o p : ConfigObject} {text : String}

/-! ### Changes of a directory -/

theorem outcome_write_directory (hw : w.active = .directory dir) {r : Except Error Unit} {fs : Files}
    (h : writeFile w.files (filePath dir (collectionOf c) name) o = (r, fs)) :
    outcome (write c name o) w = (r, { w with files := fs }) := by
  rw [write, outcome_bind, outcome_get]
  simp only [hw, Storage.write, h, outcome_bind, outcome_set, outcome_ofExcept]

theorem outcome_delete_directory (hw : w.active = .directory dir) {r : Except Error Bool}
    {fs : Files} (h : deleteFile w.files (filePath dir (collectionOf c) name) = (r, fs)) :
    outcome (delete c name) w = (r, { w with files := fs }) := by
  rw [delete, outcome_bind, outcome_get]
  simp only [hw, Storage.delete, h, outcome_bind, outcome_set, outcome_ofExcept]

theorem exists_write (hw : w.active = .directory dir) (hd : Mirrors w.files dir d)
    (hc : IsCollectionName (collectionOf c)) (hname : IsObjectName name)
    (ho : ConfigObject.encode o = .ok text) (hp : ConfigObject.decode text = .ok p) :
    ∃ fs, outcome (write c name o) w = (.ok (), { w with files := fs }) ∧
      Mirrors fs dir (putObject d (collectionOf c) name p) := by
  obtain ⟨fs, hfs, hd'⟩ := hd.exists_writeFile hc hname ho hp
  exact ⟨fs, outcome_write_directory hw hfs, hd'⟩

theorem exists_delete (hw : w.active = .directory dir) (hd : Mirrors w.files dir d)
    (hc : IsCollectionName (collectionOf c)) (hname : IsObjectName name) :
    ∃ fs, outcome (delete c name) w
        = (.ok (d.object? (collectionOf c) name).isSome, { w with files := fs }) ∧
      Mirrors fs dir (dropObject d (collectionOf c) name) := by
  obtain ⟨fs, hfs, hd'⟩ := hd.exists_deleteFile hc hname
  exact ⟨fs, outcome_delete_directory hw hfs, hd'⟩

theorem exists_forM_delete (hw : w.active = .directory dir) (hd : Mirrors w.files dir d)
    (hc : IsCollectionName (collectionOf c)) {names : List String}
    (hnames : ∀ name ∈ names, IsObjectName name) :
    ∃ fs, outcome (names.forM fun name => do let _ ← delete c name) w
        = (.ok (), { w with files := fs }) ∧
      Mirrors fs dir (names.foldl (dropObject · (collectionOf c)) d) := by
  induction names generalizing w d with
  | nil => exact ⟨w.files, rfl, hd⟩
  | cons name names ih =>
    obtain ⟨hname, hnames⟩ := List.forall_mem_cons.mp hnames
    obtain ⟨fs, hfs, hd'⟩ := exists_delete hw hd hc hname
    have hfirst : outcome (do let _ ← delete c name) w = (.ok (), { w with files := fs }) := by
      rw [outcome_bind_ok hfs]
      rfl
    obtain ⟨fs', hfs', hd''⟩ := ih (w := { w with files := fs }) hw hd' hnames
    exact ⟨fs', (outcome_bind_ok hfirst).trans hfs', hd''⟩

/-- Renaming starts with a read. -/
theorem outcome_rename_directory (hw : w.active = .directory dir) (hd : Mirrors w.files dir d)
    (hc : IsCollectionName (collectionOf c)) (hname : IsObjectName name) (newName : String) :
    outcome (rename c name newName) w = match d.object? (collectionOf c) name with
      | none => (.error (.config name "cannot rename an object that does not exist"), w)
      | some p => outcome (do write c newName p; let _ ← delete c name) w := by
  have hread : outcome (read? c name) w = (.ok (d.object? (collectionOf c) name), w) := by
    rw [read?, outcome_ask, hw, hd.read? hc hname]
  have hcombined : (directory dir).isCombined = false := rfl
  rw [rename, outcome_bind_ok (outcome_get w), hw, hcombined]
  simp only [Bool.false_eq_true, if_false]
  rw [outcome_bind_ok hread]
  cases d.object? (collectionOf c) name <;> rfl

/-- Deleting by the start of a name starts with a list. -/
theorem outcome_deleteAll_directory (hw : w.active = .directory dir) (hd : Mirrors w.files dir d)
    (hc : IsCollectionName (collectionOf c)) (start : String) :
    outcome (deleteAll c start) w = outcome (((d.collection (collectionOf c)).names.filter
      (Text.hasStart start)).forM fun name => do let _ ← delete c name) w := by
  have hlist : outcome (list c start) w
      = (.ok ((d.collection (collectionOf c)).names.filter (Text.hasStart start)), w) := by
    rw [list, outcome_ask, Storage.list, hw, hd.listNames hc]
    rfl
  have hcombined : (directory dir).isCombined = false := rfl
  rw [deleteAll, outcome_bind_ok (outcome_get w), hw, hcombined]
  simp only [Bool.false_eq_true, if_false]
  rw [outcome_bind_ok hlist]

end ConfigM

/-! ### One change on both sides -/

namespace Edit

open Storage

/-- A change that refuses an object that cannot be written, as a directory does. -/
def checked : Edit → ConfigM (Option Bool)
  | write c name o => do
    let _ ← (MonadExcept.ofExcept (ConfigObject.encode o) : ConfigM String)
    (write c name o).perform
  | e => e.perform

/-- The names of a change can be those of files, and what it writes belongs to a family. -/
def IsFor (Q : ConfigObject → Prop) : Edit → Prop
  | write c name o => IsCollectionName (collectionOf c) ∧ IsObjectName name ∧ Q o
  | delete c name => IsCollectionName (collectionOf c) ∧ IsObjectName name
  | rename c name newName =>
    IsCollectionName (collectionOf c) ∧ IsObjectName name ∧ IsObjectName newName
  | deleteAll c _ => IsCollectionName (collectionOf c)

end Edit

/-- A workspace on a directory and one in memory have equal objects, all of a family. -/
def Workspace.Twins (Q : ConfigObject → Prop) (dir : Path) (w v : Workspace) : Prop :=
  ∃ d m, w.active = .directory dir ∧ v.active = .memory m ∧ Storage.Mirrors w.files dir d ∧
    d.Agrees m ∧ d.Holds (Writable Q)

/-- Two changes, one of each workspace, give the same and leave workspaces with equal objects. -/
def Workspace.Matches (Q : ConfigObject → Prop) (dir : Path) (w v : Workspace) {α : Type}
    (x y : ConfigM α) : Prop :=
  (outcome x w).1 = (outcome y v).1 ∧ Workspace.Twins Q dir (outcome x w).2 (outcome y v).2

namespace Edit

open Storage Workspace

variable {Q : ConfigObject → Prop} {w v : Workspace} {dir : Path} {m : Snapshot}
  {c : Option String} {name newName start : String} {o : ConfigObject}

theorem outcome_perform_memory (e : Edit) (hv : v.active = .memory m) : outcome e.perform v
    = ((e.result m m).1, { v with active := .memory (e.result m m).2 }) :=
  e.acts_perform fronts_memory hv

theorem matches_write (hQ : ReadsBack Q) (h : w.Twins Q dir v)
    (hc : IsCollectionName (collectionOf c)) (hname : IsObjectName name) (ho : Q o) :
    Matches Q dir w v (write c name o).perform (write c name o).checked := by
  obtain ⟨d, m, hw, hv, hd, hagrees, hall⟩ := h
  cases htext : ConfigObject.encode o with
  | error e =>
    obtain ⟨fs, hfs, hd'⟩ := hd.exists_writeFile_error hc hname htext
    have hleft : outcome (write c name o).perform w = (.error e, { w with files := fs }) :=
      outcome_bind_error (ConfigM.outcome_write_directory hw hfs)
    have hright : outcome (write c name o).checked v = (.error e, v) := by
      rw [checked, htext]
      rfl
    rw [Matches, hleft, hright]
    exact ⟨rfl, d, m, hw, hv, hd', hagrees, hall⟩
  | ok text =>
    obtain ⟨p, hp, hsame, hwritable⟩ := hQ.exists_decode ho htext
    obtain ⟨fs, hfs, hd'⟩ := ConfigM.exists_write hw hd hc hname htext hp
    have hleft : outcome (write c name o).perform w = (.ok none, { w with files := fs }) :=
      outcome_bind_ok hfs
    have hright : outcome (write c name o).checked v = outcome (write c name o).perform v := by
      rw [checked, htext]
      rfl
    rw [Matches, hleft, hright, outcome_perform_memory _ hv]
    exact ⟨rfl, _, _, hw, rfl, hd', hagrees.putObject hsame _ _, hall.putObject hwritable _ _⟩

theorem matches_delete (h : w.Twins Q dir v) (hc : IsCollectionName (collectionOf c))
    (hname : IsObjectName name) :
    Matches Q dir w v (delete c name).perform (delete c name).checked := by
  obtain ⟨d, m, hw, hv, hd, hagrees, hall⟩ := h
  obtain ⟨fs, hfs, hd'⟩ := ConfigM.exists_delete hw hd hc hname
  have hleft : outcome (delete c name).perform w
      = (.ok (some (d.object? (collectionOf c) name).isSome), { w with files := fs }) :=
    outcome_bind_ok hfs
  have hright : outcome (delete c name).checked v = outcome (delete c name).perform v := rfl
  rw [Matches, hleft, hright, outcome_perform_memory _ hv, hagrees.isSome_eq]
  exact ⟨rfl, _, _, hw, rfl, hd', hagrees.dropObject _ _, hall.dropObject _ _⟩

/-- What is renamed in a directory is read and written again. -/
theorem matches_rename (hQ : ReadsBack Q) (h : w.Twins Q dir v)
    (hc : IsCollectionName (collectionOf c)) (hname : IsObjectName name)
    (hnew : IsObjectName newName) :
    Matches Q dir w v (rename c name newName).perform (rename c name newName).checked := by
  obtain ⟨d, m, hw, hv, hd, hagrees, hall⟩ := h
  have hrename := ConfigM.outcome_rename_directory hw hd hc hname newName
  have hright : outcome (rename c name newName).checked v
      = outcome (rename c name newName).perform v := rfl
  rw [Matches, hright, outcome_perform_memory _ hv, perform, result, renameObject]
  cases hn : d.object? (collectionOf c) name with
  | none =>
    have hm : m.object? (collectionOf c) name = none := by
      have := hagrees.isSome_eq (collectionOf c) name
      rw [hn] at this
      simpa using this.symm
    rw [hn] at hrename
    rw [outcome_bind_error hrename, hm]
    exact ⟨rfl, d, m, hw, rfl, hd, hagrees, hall⟩
  | some p =>
    obtain ⟨o, hm, hsame⟩ := hagrees.exists_same hn
    obtain ⟨hp, text, htext⟩ := hall _ _ _ hn
    obtain ⟨p', hp', hsame', hwritable⟩ := hQ.exists_decode hp htext
    obtain ⟨fs, hfs, hd'⟩ := ConfigM.exists_write hw hd hc hnew htext hp'
    obtain ⟨fs', hfs', hd''⟩ := ConfigM.exists_delete (w := { w with files := fs }) hw hd' hc hname
    have hboth : outcome (do ConfigM.write c newName p; let _ ← ConfigM.delete c name) w
        = (.ok (), { w with files := fs' }) := by
      rw [outcome_bind_ok hfs, outcome_bind_ok hfs']
      rfl
    rw [hn] at hrename
    rw [outcome_bind_ok (hrename.trans hboth), hm]
    exact ⟨rfl, _, _, hw, rfl, hd'',
      (hagrees.putObject (Value.same_trans hsame' hsame) _ _).dropObject _ _,
      (hall.putObject hwritable _ _).dropObject _ _⟩

theorem matches_deleteAll (h : w.Twins Q dir v) (hc : IsCollectionName (collectionOf c)) :
    Matches Q dir w v (deleteAll c start).perform (deleteAll c start).checked := by
  obtain ⟨d, m, hw, hv, hd, hagrees, hall⟩ := h
  have hnames : ∀ name ∈ (d.collection (collectionOf c)).names.filter (Text.hasStart start),
      IsObjectName name := by
    intro name hname
    refine hd.isObjectName (c := collectionOf c) ?_
    exact (NameMap.mem_names_iff ..).mp (List.mem_of_mem_filter hname)
  obtain ⟨fs, hfs, hd'⟩ := ConfigM.exists_forM_delete hw hd hc hnames
  have hleft : outcome (deleteAll c start).perform w = (.ok none, { w with files := fs }) :=
    outcome_bind_ok ((ConfigM.outcome_deleteAll_directory hw hd hc start).trans hfs)
  have hright : outcome (deleteAll c start).checked v = outcome (deleteAll c start).perform v := rfl
  rw [Matches, hleft, hright, outcome_perform_memory _ hv, result, dropObjects, ← hagrees.names_eq]
  exact ⟨rfl, _, _, hw, rfl, hd', hagrees.foldl_dropObject _ _, hall.foldl_dropObject _ _⟩

/-- A change of a directory and the checked one of memory go alike. -/
theorem matches_perform (hQ : ReadsBack Q) {e : Edit} (he : e.IsFor Q) (h : w.Twins Q dir v) :
    Matches Q dir w v e.perform e.checked := by
  cases e with
  | write c name o => exact matches_write hQ h he.1 he.2.1 he.2.2
  | delete c name => exact matches_delete h he.1 he.2
  | rename c name newName => exact matches_rename hQ h he.1 he.2.1 he.2.2
  | deleteAll c start => exact matches_deleteAll h he

end Edit

/-! ### Answers -/

namespace Storage

/-- Two storages, each with its files, give the same answers about all objects that files can hold:
the same names, and equal objects under them. -/
structure AnswersAlike (fs fs' : Files) (s t : Storage) : Prop where
  holds : ∀ c name, IsCollectionName (collectionOf c) → IsObjectName name →
    ∃ b, s.holds fs c name = .ok b ∧ t.holds fs' c name = .ok b
  read? : ∀ c name, IsCollectionName (collectionOf c) → IsObjectName name →
    ∃ a b, s.read? fs c name = .ok a ∧ t.read? fs' c name = .ok b ∧
      Option.Rel (fun o p => o.same p = true) a b
  list : ∀ c start, IsCollectionName (collectionOf c) →
    ∃ names, s.list fs c start = .ok names ∧ t.list fs' c start = .ok names
  collectionNames : ∃ cs cs', s.collectionNames fs = .ok cs ∧ t.collectionNames fs' = .ok cs' ∧
    ∀ c, c ∈ cs ↔ c ∈ cs'
  exportAll : ∃ a b, s.exportAll fs = .ok a ∧ t.exportAll fs' = .ok b ∧ a.same b = true

/-- A directory and memory with equal objects answer alike. -/
theorem Mirrors.answersAlike {fs : Files} {dir : Path} {d m : Snapshot} (hd : Mirrors fs dir d)
    (h : d.Agrees m) (fs' : Files) : AnswersAlike fs fs' (directory dir) (memory m) where
  holds c name hc hname := ⟨_, hd.holds hc hname, congrArg Except.ok (h.isSome_eq _ _).symm⟩
  read? c name hc hname := ⟨_, _, hd.read? hc hname, rfl, h _ _⟩
  list c start hc := by
    refine ⟨_, Except.bind_eq_ok_iff.mpr ⟨_, hd.listNames hc, rfl⟩, ?_⟩
    rw [h.names_eq]
    rfl
  collectionNames := by
    obtain ⟨cs, hcs, hmem⟩ := hd.collectionNames
    refine ⟨cs, _, hcs, rfl, fun c => (hmem c).trans ?_⟩
    simp only [Snapshot.mem_collectionNames_iff, h.isSome_eq]
  exportAll := ⟨_, _, hd.exportAll, (Shows.memory m).exportAll fs', h.exported_same⟩

end Storage

/-! ### Any changes -/

namespace Edit

open Storage Workspace

variable {Q : ConfigObject → Prop} {w v : Workspace} {dir : Path} {es : List Edit}

/-- Make changes one after the other, whether or not they fail, and keep what each of them gives. -/
def performAll (f : Edit → ConfigM (Option Bool)) :
    List Edit → Workspace → List (Except Error (Option Bool)) × Workspace
  | [], w => ([], w)
  | e :: es, w =>
    let rest := performAll f es (outcome (f e) w).2
    ((outcome (f e) w).1 :: rest.1, rest.2)

theorem twins_performAll (hQ : ReadsBack Q) (hes : ∀ e ∈ es, e.IsFor Q) (h : w.Twins Q dir v) :
    (performAll perform es w).1 = (performAll checked es v).1 ∧
      (performAll perform es w).2.Twins Q dir (performAll checked es v).2 := by
  induction es generalizing w v with
  | nil => exact ⟨rfl, h⟩
  | cons e es ih =>
    obtain ⟨he, hes⟩ := List.forall_mem_cons.mp hes
    obtain ⟨hresult, htwins⟩ := matches_perform hQ he h
    obtain ⟨hresults, htwins'⟩ := ih hes htwins
    exact ⟨by rw [performAll, performAll, hresult, hresults], htwins'⟩

/-- An empty directory and an empty storage in memory have the same objects. -/
theorem twins_empty (hlimit : w.files.nameLimit = none) (hw : w.active = .directory dir)
    (hdir : w.files.get dir = .ok (.dir [])) (hv : v.active = .memory NameMap.empty) :
    w.Twins Q dir v := by
  obtain ⟨place, hseat⟩ := Files.exists_seat hdir
  exact ⟨NameMap.empty, NameMap.empty, hw, hv, ⟨hlimit, place, .dir [], hseat, .empty⟩, .refl _,
    fun c name o ho => by cases ho⟩

/-- Changes of any collections, made in an empty directory and in an empty storage in memory that
refuses what cannot be written, give the same, and afterwards both storages answer alike. -/
theorem directory_as_memory (hQ : ReadsBack Q) (hes : ∀ e ∈ es, e.IsFor Q)
    (hlimit : w.files.nameLimit = none) (hw : w.active = .directory dir)
    (hdir : w.files.get dir = .ok (.dir [])) (hv : v.active = .memory NameMap.empty) :
    (performAll perform es w).1 = (performAll checked es v).1 ∧
      ∃ m, (performAll perform es w).2.active = .directory dir ∧
        (performAll checked es v).2.active = .memory m ∧
        AnswersAlike (performAll perform es w).2.files (performAll checked es v).2.files
          (.directory dir) (.memory m) := by
  obtain ⟨hresults, d, m, hw', hv', hd, hagrees, -⟩ :=
    twins_performAll hQ hes (twins_empty hlimit hw hdir hv)
  exact ⟨hresults, m, hw', hv', hd.answersAlike hagrees _⟩

/-! ### Instances -/

/-- An object with a single text. -/
def note : ConfigObject := Mapping.ofNames [("label", .string "note")]

theorem eq_note_of_same {p : ConfigObject} (h : p.same note = true) : p = note := by
  rw [Mapping.same, Mapping.toValue, Mapping.toValue, Value.same, Bool.and_eq_true, beq_iff_eq] at h
  obtain ⟨⟨k, v⟩, hentries⟩ := List.length_eq_one_iff.mp h.1
  obtain ⟨f, hf, hkey, hvalue⟩ := Value.sameEntries_iff.mp h.2 (k, v) (by simp [hentries])
  cases List.mem_singleton.mp hf
  have hk : k = .string "label" := Mapping.same_string_iff.mp hkey
  have hv : v = .string "note" := Mapping.same_string_iff.mp hvalue
  rw [hk, hv] at hentries
  exact congrArg Mapping.mk hentries

theorem readsBack_note : ReadsBack (· = note) := by
  rintro o text rfl htext
  have hencode : ConfigObject.encode note = .ok "label: note\n" := rfl
  have hread : ∃ p, ConfigObject.decode "label: note\n" = .ok p ∧ p.same note = true := by
    decide +kernel
  rw [hencode] at htext
  cases htext
  obtain ⟨p, hp, hsame⟩ := hread
  exact ⟨p, hp, hsame, eq_note_of_same hsame⟩

/-- An empty directory. -/
def emptyDirectory : Workspace where
  files := { tree := .dir [("d", .dir [])], nameLimit := none }
  active := .directory ⟨"/d"⟩

/-- An empty storage in memory. -/
def emptyMemory : Workspace where
  files := {}
  active := .memory NameMap.empty

/-- Changes in the default collection and in one that has its directory inside of another's. -/
def noteChanges : List Edit :=
  [.write none "core.note" note, .write (some "fr.be") "core.note" note,
    .rename (some "fr.be") "core.note" "core.memo", .delete none "core.note",
    .delete (some "fr") "core.memo", .rename none "core.note" "core.memo", .deleteAll (some "fr") ""]

theorem directory_as_memory_of_notes :
    (ReadsBack (· = note) ∧ (∀ e ∈ noteChanges, e.IsFor (· = note)) ∧
      emptyDirectory.files.nameLimit = none ∧ emptyDirectory.active = .directory ⟨"/d"⟩ ∧
      emptyDirectory.files.get ⟨"/d"⟩ = .ok (.dir []) ∧ emptyMemory.active = .memory NameMap.empty) ∧
    (performAll perform noteChanges emptyDirectory).1
      = [.ok none, .ok none, .ok none, .ok (some true), .ok (some false),
        .error (.config "core.note" "cannot rename an object that does not exist"), .ok none] ∧
    ∃ m : Snapshot, (m.object? "fr.be" "core.memo").isSome = true ∧
      (performAll perform noteChanges emptyDirectory).2.active = .directory ⟨"/d"⟩ ∧
      (performAll checked noteChanges emptyMemory).2.active = .memory m ∧
      AnswersAlike (performAll perform noteChanges emptyDirectory).2.files
        (performAll checked noteChanges emptyMemory).2.files (.directory ⟨"/d"⟩) (.memory m) := by
  have hfor : ∀ e ∈ noteChanges, e.IsFor (· = note) := by
    simp only [noteChanges, List.forall_mem_cons, IsFor, List.not_mem_nil, false_imp_iff,
      implies_true, and_true]
    decide
  have hdir : emptyDirectory.active = .directory ⟨"/d"⟩ := rfl
  obtain ⟨hresults, m, hw, hv, hanswers⟩ := directory_as_memory (v := emptyMemory) readsBack_note
    hfor rfl hdir rfl rfl
  have hmemo : (match (performAll checked noteChanges emptyMemory).2.active with
      | .memory m => (Snapshot.object? m "fr.be" "core.memo").isSome
      | _ => false) = true := rfl
  rw [hv] at hmemo
  exact ⟨⟨readsBack_note, hfor, rfl, hdir, rfl, rfl⟩, hresults.trans rfl, m, hmemo, hw, hv, hanswers⟩

/-- An object that cannot be written: in front of its value, its key would be taken for a tag. -/
def keyedByMapping : ConfigObject :=
  ⟨[(.map [(.string "a", .int 1)], .string "map key")]⟩

/-- Without the check the two differ: memory takes an object that a directory refuses. -/
theorem directory_differs_from_memory :
    ReadsBack (· = keyedByMapping) ∧ (write none "a" keyedByMapping).IsFor (· = keyedByMapping) ∧
    emptyDirectory.files.nameLimit = none ∧ emptyDirectory.active = .directory ⟨"/d"⟩ ∧
    emptyDirectory.files.get ⟨"/d"⟩ = .ok (.dir []) ∧ emptyMemory.active = .memory NameMap.empty ∧
    (performAll perform [write none "a" keyedByMapping] emptyDirectory).1
      ≠ (performAll perform [write none "a" keyedByMapping] emptyMemory).1 := by
  have hencode : ConfigObject.encode keyedByMapping = .error (.ofYaml .ambiguousKey) := rfl
  have hreads : ReadsBack (· = keyedByMapping) := by
    rintro o text rfl htext
    rw [hencode] at htext
    cases htext
  have hfor : (write none "a" keyedByMapping).IsFor (· = keyedByMapping) :=
    ⟨by decide, by decide, rfl⟩
  have hdir : emptyDirectory.active = .directory ⟨"/d"⟩ := rfl
  refine ⟨hreads, hfor, rfl, hdir, rfl, rfl, fun hsame => ?_⟩
  have htwins := twins_performAll hreads (List.forall_mem_singleton.mpr hfor)
    (twins_empty (v := emptyMemory) rfl hdir rfl rfl)
  have hrefused : (performAll checked [write none "a" keyedByMapping] emptyMemory).1
      = [.error (.ofYaml .ambiguousKey)] := rfl
  have htaken : (performAll perform [write none "a" keyedByMapping] emptyMemory).1
      = [.ok none] := rfl
  rw [htwins.1, hrefused, htaken] at hsame
  cases hsame

end Edit

end Cookbook
