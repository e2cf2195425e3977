import Cookbook.Proofs.Files.Below
import Cookbook.Proofs.Storage.Naming

/-!
# What a storage lists is there

A directory lists the names of its files, and an object in it is looked up by a path. Both see the
same objects as long as the files are as file systems have them: then no directory has two entries
of the same name, and a path leads to each entry.

## Main definitions

* `Files.Sound`: files as file systems have them.

## Main results

* `Storage.holds_of_mem_listNames`: a storage has what it lists.
-/

namespace Cookbook

/-- The names of the entries of a directory. -/
def FileTree.entryNames : FileTree → List String
  | .file _ => []
  | .dir entries => entries.map Prod.fst

namespace Files

variable {fs : Files}

/-- Files as file systems have them: the entries of a directory come in the order of their names,
which are different, and paths lead to them. -/
def Sound (fs : Files) : Prop :=
  ∀ place t, fs.tree.get? place = some t →
    t.entryNames.Pairwise (· < ·) ∧ ∀ n ∈ t.entryNames, fs.Admits n

theorem admits_iff {n : String} :
    fs.Admits n ↔ ofPiece? n = some (.entry n) ∧ IsPiece n ∧ fs.isName n = true :=
  ⟨fun h => ⟨h.entry, h.piece, h.isName⟩, fun ⟨hentry, hpiece, hname⟩ => ⟨hentry, hpiece, hname⟩⟩

instance decidableAdmits (n : String) : Decidable (fs.Admits n) :=
  decidable_of_iff _ admits_iff.symm

/-- Only directories have entries. -/
theorem sound_iff : fs.Sound ↔ ∀ place ∈ fs.directories, ∀ t ∈ fs.tree.get? place,
    t.entryNames.Pairwise (· < ·) ∧ ∀ n ∈ t.entryNames, fs.Admits n := by
  constructor
  · exact fun h place _ t ht => h place t ht
  · intro h place t ht
    cases t with
    | file c => exact ⟨List.Pairwise.nil, List.forall_mem_nil _⟩
    | dir entries => exact h place (mem_directories ht) _ ht

instance decidableSound : Decidable fs.Sound := decidable_of_iff _ sound_iff.symm

/-- A path leads to each file of a directory. -/
theorem Sound.isFile_join (hfs : fs.Sound) {dir : Path} {entries : List (String × FileTree)}
    (h : fs.get dir = .ok (.dir entries)) {n : String} {t : FileTree} (hmem : (n, t) ∈ entries)
    (ht : t.isFile = true) : fs.isFile (dir.join n) = true := by
  obtain ⟨place, hseat⟩ := exists_seat h
  obtain ⟨hascending, hadmits⟩ := hfs place _ hseat.tree
  have hlookup : NameMap.lookup n entries = some t :=
    NameMap.lookup_eq_some_of_mem hascending hmem
  have hget : (FileTree.dir entries).get? [n] = some t := by
    rw [FileTree.get?, hlookup]
    exact FileTree.get?.eq_1 t
  rw [isFile, hseat.get_name (hadmits n (List.mem_map_of_mem hmem)), hget]
  exact ht

end Files

namespace Storage

variable {fs : Files} {c : Option String} {name : String} {names : List String} {s : Storage}

theorem isFile_of_mem_listFiles (hfs : fs.Sound) {dir : Path} {c : String}
    (h : listFiles fs dir c = .ok names) (hname : name ∈ names) :
    fs.isFile (filePath dir c name) = true := by
  rw [listFiles] at h
  split at h
  · cases h
    cases hname
  · cases h
  · rename_i entries hentries
    cases h
    obtain ⟨t, hget, hdir⟩ := Except.bind_eq_ok_iff.mp hentries
    rw [sortNames, List.mem_mergeSort, objectNames, List.mem_filterMap] at hname
    obtain ⟨⟨n, u⟩, hmem, hn⟩ := hname
    split at hn
    · rename_i hfile
      obtain rfl := (objectName?_eq_some_iff.mp hn).2
      cases t with
      | file c => cases hdir
      | dir entries =>
        cases hdir
        exact hfs.isFile_join hget hmem hfile
    · cases hn

/-- Whether an object is there can always be told. -/
theorem exists_holds (fs : Files) (c : Option String) (name : String) (s : Storage) :
    ∃ there, s.holds fs c name = .ok there := by
  induction s generalizing c with
  | null | memory | directory | view => exact ⟨_, rfl⟩
  | merged first second ihfirst ihsecond =>
    obtain ⟨there, hfirst⟩ := ihfirst c
    rw [holds, hfirst]
    cases there with
    | true => exact ⟨true, rfl⟩
    | false => exact ihsecond c
  | overriding recipe wrapped _ ih => exact ih c
  | selecting selected active ih =>
    cases selected with
    | some m => exact ⟨_, rfl⟩
    | none => exact ih _
  | within c' s ih => exact ih _

/-- A storage has what it lists. -/
theorem holds_of_mem_listNames (hfs : fs.Sound) (h : s.listNames fs c = .ok names)
    (hname : name ∈ names) : s.holds fs c name = .ok true := by
  have hmemory : ∀ {m : Snapshot} {c : String}, name ∈ (m.collection c).names →
      Except.ok (ε := Error) ((m.collection c).contains name) = .ok true := by
    intro m c hname
    rw [NameMap.contains, (NameMap.mem_names_iff ..).mp hname]
  induction s generalizing c names with
  | null =>
    cases h
    cases hname
  | memory m | view m =>
    cases h
    exact hmemory hname
  | directory dir => exact congrArg Except.ok (isFile_of_mem_listFiles hfs h hname)
  | merged first second ihfirst ihsecond =>
    obtain ⟨ns, hns, h⟩ := Except.bind_eq_ok_iff.mp h
    obtain ⟨more, hmore, h⟩ := Except.bind_eq_ok_iff.mp h
    cases h
    rw [holds]
    rcases List.mem_append.mp (NameMap.mem_distinctNames.mp hname) with hname | hname
    · rw [ihfirst hns hname]
      rfl
    · obtain ⟨there, hfirst⟩ := exists_holds fs c name first
      rw [hfirst]
      cases there with
      | true => rfl
      | false => exact ihsecond hmore hname
  | overriding recipe wrapped _ ih => exact ih h hname
  | selecting selected active ih =>
    cases selected with
    | some m =>
      cases h
      exact hmemory hname
    | none => exact ih h hname
  | within c' s ih => exact ih h hname

end Storage

end Cookbook
