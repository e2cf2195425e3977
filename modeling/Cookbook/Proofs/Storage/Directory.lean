import Cookbook.Proofs.Files.Making
import Cookbook.Proofs.Storage.Combining
import Cookbook.Proofs.Storage.Naming
import Mathlib.Data.List.Perm.Basic

/-!
# The objects of a directory

What is in a directory is stated against a snapshot: every object has its file, with a text that is
decoded as it, and there is nothing else but directories on the way to collections. These may be
empty, as they stay when the last object of a collection is deleted, so that the directories are not
determined by the snapshot; but nothing that is read shows them.

`Storage.Mirrors` is this relation, for the directory that a path leads to. All reads give what the
snapshot has.

## Main definitions

* `Storage.Shelves`: a tree has nothing but directories of collections and files of objects.
* `Storage.Stores`: a tree has the files of the objects of a snapshot.
* `Storage.Mirrors`: a path leads to a directory with such a tree.

## Main results

* `Storage.Mirrors.holds`, `read?`, `listNames`, `collectionNames`, `exportAll`: reading the directory.
-/

namespace Cookbook

namespace Storage

variable {fs : Files} {dir : Path} {place names : List String} {t : FileTree} {d d' : Snapshot}
  {c name k : String} {entries : List (String × FileTree)}

/-! ### Sorted names -/

/-- Names in ascending order are those of a map if they are the same names. -/
theorem sortNames_eq {α : Type} {m : NameMap α} {l : List String} (hl : l.Nodup)
    (hmem : ∀ k, k ∈ l ↔ (m.get? k).isSome = true) : sortNames l = m.names := by
  have hperm : (sortNames l).Perm m.names := by
    refine (List.mergeSort_perm ..).trans ?_
    exact (List.perm_ext_iff_of_nodup hl m.nodup_names).mpr fun k =>
      (hmem k).trans (m.mem_names_iff k).symm
  have hsorted : (sortNames l).Pairwise (· ≤ ·) := by
    refine (List.pairwise_mergeSort (fun a b c hab hbc => ?_) (fun a b => ?_) l).imp fun h => ?_
    · simp only [Bool.not_eq_true', decide_eq_false_iff_not, String.not_lt] at hab hbc ⊢
      exact String.le_trans hab hbc
    · simp only [Bool.or_eq_true, Bool.not_eq_true', decide_eq_false_iff_not, String.not_lt]
      exact String.le_total a b
    · simp only [Bool.not_eq_true', decide_eq_false_iff_not, String.not_lt] at h
      exact h
  refine hperm.eq_of_pairwise (fun a b _ _ => String.le_antisymm) hsorted (m.ascending.imp ?_)
  exact fun h => String.not_lt.mp fun h' => String.lt_irrefl _ (String.lt_trans h h')

/-! ### The tree -/

/-- A tree has nothing but directories of collections and files of objects. -/
structure Shelves (t : FileTree) : Prop where
  ordered : t.Ordered
  dirs : ∀ names, t.look names = some none → ∀ n ∈ names, IsSegment n
  files : ∀ names f, t.look names = some (some f) →
    ∃ c name, IsCollectionName c ∧ IsObjectName name ∧ names = entry c name

namespace Shelves

theorem empty : Shelves (.dir []) where
  ordered := FileTree.ordered_empty
  dirs names h := by
    by_cases hne : names = []
    · simp [hne]
    · rw [FileTree.look_empty hne] at h
      cases h
  files names f h := by
    cases names <;> cases h

/-- No file is where the directory of a collection can be. -/
theorem look_ne_file (h : Shelves t) (hnames : ∀ n ∈ names, IsSegment n) (f : FileContent) :
    t.look names ≠ some (some f) := by
  intro hf
  obtain ⟨c, name, -, -, rfl⟩ := h.files names f hf
  obtain ⟨n, hn, hno⟩ := exists_not_isSegment c name
  exact hno (hnames n hn)

/-- In a directory of a collection no file is in the way. -/
theorem open_concat (h : Shelves t) (hnames : ∀ n ∈ names, IsSegment n) (n : String) :
    t.Open (names ++ [n]) := by
  intro above more heq hmore f
  have hway : above <+: names :=
    (List.prefix_concat_iff.mp ⟨more, heq.symm⟩).resolve_left fun hwhole => by
      rw [hwhole] at heq
      exact hmore (List.append_cancel_left (heq.symm.trans (List.append_nil _).symm))
  exact h.look_ne_file (fun n hn => hnames n (hway.subset hn)) f

theorem look_entry_ne (h : Shelves t) : t.look (entry c name) ≠ some none := by
  obtain ⟨n, hn, hno⟩ := exists_not_isSegment c name
  exact fun hdir => hno (h.dirs _ hdir n hn)

/-- A directory is that of the collection whose name its segments make up. -/
theorem segments_of_get? (h : Shelves t) (hget : t.get? names = some (.dir entries)) :
    segments (".".intercalate names) = names :=
  segments_intercalate (h.dirs names (FileTree.look_eq_dir_iff.mpr ⟨entries, hget⟩))

/-- What the path to a collection leads to. -/
theorem get_collectionPath (h : Shelves t) (hlimit : fs.nameLimit = none)
    (hseat : fs.Seat dir place t) (hc : IsCollectionName c) :
    fs.get (collectionPath dir c) = (t.get? (segments c)).elim (.error .notFound) .ok := by
  have hsegments := isSegment_of_mem hc
  by_cases hdefault : c = defaultCollection
  · rw [collectionPath, segments, if_pos hdefault, if_pos hdefault, hseat.get_self,
      FileTree.get?_nil]
    rfl
  · rw [collectionPath_eq hdefault]
    refine hseat.get (fun n hn => admits_segment hlimit (hsegments n hn)) ?_ ?_
    · exact fun hnil => hdefault (segments_inj (hnil.trans rfl))
    · intro above more heq hmore
      exact h.open_concat hsegments "" above (more ++ [""]) (by rw [heq]; simp) (by simp)

end Shelves

/-- A tree has the files of the objects of a snapshot, and otherwise nothing but directories of
collections. -/
structure Stores (t : FileTree) (d : Snapshot) : Prop extends Shelves t where
  objects : ∀ c name, IsCollectionName c → IsObjectName name →
    Option.Rel (fun k p => ∃ text, k = some (.text text) ∧ ConfigObject.decode text = .ok p)
      (t.look (entry c name)) (d.object? c name)
  named : ∀ c name p, d.object? c name = some p → IsCollectionName c ∧ IsObjectName name

namespace Stores

theorem empty : Stores (.dir []) NameMap.empty where
  toShelves := .empty
  objects c name _ _ := by
    rw [FileTree.look_empty (by simp [entry])]
    exact .none
  named c name p h := by cases h

/-- What is stored depends on the objects alone. -/
theorem congr (h : Stores t d) (hd : ∀ c name, d'.object? c name = d.object? c name) :
    Stores t d' where
  toShelves := h.toShelves
  objects c name hc hname := by
    rw [hd]
    exact h.objects c name hc hname
  named c name p hp := h.named c name p ((hd c name).symm.trans hp)

/-- There is an object where there is a file. -/
theorem isSome_object?_iff (h : Stores t d) (hc : IsCollectionName c) (hname : IsObjectName name) :
    (d.object? c name).isSome = true ↔ ∃ f, t.get? (entry c name) = some (.file f) := by
  have hobject := (Option.rel_iff.mp (h.objects c name hc hname)).1
  rw [← hobject]
  constructor
  · intro hsome
    obtain ⟨k, hk⟩ := Option.isSome_iff_exists.mp hsome
    cases k with
    | none => exact absurd hk h.look_entry_ne
    | some f => exact ⟨f, FileTree.look_eq_file_iff.mp hk⟩
  · rintro ⟨f, hf⟩
    rw [FileTree.look_eq_file_iff.mpr hf]
    rfl

/-- The files in the directory of a collection are those of its objects. -/
theorem mem_objectNames (h : Stores t d) (hc : IsCollectionName c)
    (hget : t.get? (segments c) = some (.dir entries)) :
    k ∈ objectNames entries ↔ (d.object? c k).isSome = true := by
  have hascending := h.ordered _ _ hget
  have hentry : ∀ n u, t.get? (segments c ++ [n]) = some u ↔ (n, u) ∈ entries := by
    intro n u
    rw [FileTree.get?_append, hget, Option.bind_some, FileTree.get?]
    simp only [FileTree.get?_nil, Option.bind_fun_some]
    exact ⟨NameMap.mem_of_lookup_eq_some, NameMap.lookup_eq_some_of_mem hascending⟩
  rw [objectNames, List.mem_filterMap]
  constructor
  · rintro ⟨⟨n, u⟩, hmem, hk⟩
    cases u with
    | dir below => cases hk
    | file f =>
      have hfile := (hentry n (.file f)).mpr hmem
      obtain ⟨c', name, hc', hname, heq⟩ := h.files _ f (FileTree.look_eq_file_iff.mpr hfile)
      obtain ⟨hsegments, hn⟩ := List.append_inj' heq rfl
      cases hn
      -- the object that the name of the file says is the one whose file it is
      obtain ⟨-, hsame⟩ := objectName?_eq_some_iff.mp hk
      rw [← (String.append_left_inj _).mp hsame, segments_inj hsegments]
      exact (h.isSome_object?_iff hc' hname).mpr ⟨f, by rw [← heq]; exact hfile⟩
  · intro hsome
    obtain ⟨o, ho⟩ := Option.isSome_iff_exists.mp hsome
    obtain ⟨-, hname⟩ := h.named c k o ho
    obtain ⟨f, hf⟩ := (h.isSome_object?_iff hc hname).mp hsome
    refine ⟨(k ++ ".yml", .file f), (hentry _ _).mp hf, ?_⟩
    simp only [FileTree.isFile, FileTree.isDir, Bool.not_false, if_true]
    exact objectName?_eq_some_iff.mpr ⟨hname.1, rfl⟩

theorem nodup_objectNames (h : t.Ordered) (hget : t.get? names = some (.dir entries)) :
    (objectNames entries).Nodup := by
  rw [objectNames, List.Nodup, List.pairwise_filterMap]
  refine (List.pairwise_map.mp (h _ _ hget)).imp fun {e e'} hlt k hk k' hk' => ?_
  rw [Option.ite_none_right_eq_some] at hk hk'
  rintro rfl
  rw [(objectName?_eq_some_iff.mp hk.2).2, (objectName?_eq_some_iff.mp hk'.2).2] at hlt
  exact String.lt_irrefl _ hlt

/-- What listing the directory of a collection gives. -/
theorem sortNames_objectNames (h : Stores t d) (hc : IsCollectionName c)
    (hget : t.get? (segments c) = some (.dir entries)) :
    sortNames (objectNames entries) = (d.collection c).names :=
  sortNames_eq (nodup_objectNames h.ordered hget) fun _ => h.mem_objectNames hc hget

/-- The directories with files are those of the collections with objects. -/
theorem mem_collectionNames_iff (h : Stores t d) : c ∈ d.collectionNames ↔
    ∃ names entries, names ≠ [] ∧ t.get? names = some (.dir entries) ∧
      (objectNames entries).isEmpty = false ∧ c = ".".intercalate names := by
  rw [Snapshot.mem_collectionNames_iff]
  constructor
  · rintro ⟨hdefault, name, hsome⟩
    obtain ⟨o, ho⟩ := Option.isSome_iff_exists.mp hsome
    obtain ⟨hc, hname⟩ := h.named c name o ho
    obtain ⟨f, hf⟩ := (h.isSome_object?_iff hc hname).mp hsome
    have hne : segments c ≠ [] := fun hnil => hdefault (segments_inj (hnil.trans rfl))
    have hlook : t.look (entry c name) ≠ none := by
      rw [FileTree.look_eq_file_iff.mpr hf]
      simp
    have hdir : t.look (segments c) = some none := FileTree.look_above hlook (by simp)
    obtain ⟨entries, hget⟩ := FileTree.look_eq_dir_iff.mp hdir
    refine ⟨segments c, entries, hne, hget, ?_, (intercalate_segments c).symm⟩
    rw [List.isEmpty_eq_false_iff_exists_mem]
    exact ⟨name, (h.mem_objectNames hc hget).mpr hsome⟩
  · rintro ⟨names, entries, hne, hget, hempty, rfl⟩
    have hnames := h.dirs names (FileTree.look_eq_dir_iff.mpr ⟨entries, hget⟩)
    have hsegments := h.segments_of_get? hget
    obtain ⟨name, hname⟩ := List.isEmpty_eq_false_iff_exists_mem.mp hempty
    refine ⟨fun hdefault => ?_, name, ?_⟩
    · rw [hdefault] at hsegments
      exact hne hsegments.symm
    · refine (h.mem_objectNames (isCollectionName_intercalate hnames) ?_).mp hname
      rw [hsegments, hget]

end Stores

/-! ### The directory -/

/-- Every directory below that holds an object is listed. -/
theorem mem_collectionsIn_iff (hseat : fs.Seat dir place t) (ht : t.Ordered) :
    c ∈ collectionsIn fs dir ↔ ∃ names entries, names ≠ [] ∧ t.get? names = some (.dir entries) ∧
      (objectNames entries).isEmpty = false ∧ c = ".".intercalate names := by
  rw [collectionsIn, hseat.get_self]
  simp only [List.mem_filterMap, Prod.exists, FileTree.mem_walk_iff ht]
  constructor
  · rintro ⟨names, u, ⟨hne, hu⟩, hc⟩
    split at hc
    · rename_i entries
      rw [Option.ite_none_left_eq_some, Option.some.injEq, Bool.not_eq_true] at hc
      exact ⟨names, entries, hne, hu, hc.1, hc.2.symm⟩
    · cases hc
  · rintro ⟨names, entries, hne, hu, hempty, rfl⟩
    exact ⟨names, .dir entries, ⟨hne, hu⟩, by simp [hempty]⟩

/-- A path leads to a directory with the files of the objects of a snapshot. Names are not limited,
so that every object can have its file. -/
structure Mirrors (fs : Files) (dir : Path) (d : Snapshot) : Prop where
  nameLimit : fs.nameLimit = none
  tree : ∃ place t, fs.Seat dir place t ∧ Stores t d

namespace Mirrors

/-- Objects are only where files can be. -/
theorem isObjectName (h : Mirrors fs dir d) (hsome : (d.object? c name).isSome = true) :
    IsObjectName name := by
  obtain ⟨place, t, -, hstores⟩ := h.tree
  obtain ⟨o, ho⟩ := Option.isSome_iff_exists.mp hsome
  exact (hstores.named c name o ho).2

/-- What the path to the file of an object leads to. -/
theorem get_filePath (h : Mirrors fs dir d) (hc : IsCollectionName c) (hname : IsObjectName name) :
    (∃ text p, fs.get (filePath dir c name) = .ok (.file (.text text)) ∧
      ConfigObject.decode text = .ok p ∧ d.object? c name = some p) ∨
    fs.get (filePath dir c name) = .error .notFound ∧ d.object? c name = none := by
  obtain ⟨place, t, hseat, hstores⟩ := h.tree
  have hget := hseat.get (admits_entry h.nameLimit hc hname) (by simp [entry])
    (hstores.open_concat (isSegment_of_mem hc) _)
  rw [filePath_eq (Files.exists_of_locate hseat.locate).1 hc hname, hget]
  have hobject := hstores.objects c name hc hname
  generalize d.object? c name = oo at hobject ⊢
  generalize hk : t.look (entry c name) = k at hobject
  cases hobject with
  | none =>
    rw [FileTree.look_eq_none_iff.mp hk]
    exact .inr ⟨rfl, rfl⟩
  | some hfile =>
    obtain ⟨text, rfl, hdecode⟩ := hfile
    rw [FileTree.look_eq_file_iff.mp hk]
    exact .inl ⟨text, _, rfl, hdecode, rfl⟩

/-- What the path to a collection leads to: its directory, or nothing if it has no objects. -/
theorem get_collectionPath (h : Mirrors fs dir d) (hc : IsCollectionName c) :
    (∃ entries, fs.get (collectionPath dir c) = .ok (.dir entries) ∧
      sortNames (objectNames entries) = (d.collection c).names) ∨
    fs.get (collectionPath dir c) = .error .notFound ∧ (d.collection c).names = [] := by
  obtain ⟨place, t, hseat, hstores⟩ := h.tree
  rw [hstores.get_collectionPath h.nameLimit hseat hc]
  cases hu : t.get? (segments c) with
  | none =>
    refine .inr ⟨rfl, List.eq_nil_iff_forall_not_mem.mpr fun k hk => ?_⟩
    rw [NameMap.mem_names_iff] at hk
    obtain ⟨f, hf⟩ := (hstores.isSome_object?_iff hc (h.isObjectName hk)).mp hk
    rw [entry, FileTree.get?_append, hu] at hf
    cases hf
  | some u =>
    cases u with
    | dir entries => exact .inl ⟨entries, rfl, hstores.sortNames_objectNames hc hu⟩
    | file f =>
      exact absurd (FileTree.look_eq_file_iff.mpr hu) (hstores.look_ne_file (isSegment_of_mem hc) f)

/-! ### Reading -/

theorem holds (h : Mirrors fs dir d) {c : Option String} (hc : IsCollectionName (collectionOf c))
    (hname : IsObjectName name) :
    (directory dir).holds fs c name = .ok (d.object? (collectionOf c) name).isSome := by
  rw [Storage.holds, Files.isFile]
  rcases h.get_filePath hc hname with ⟨text, p, hget, -, hobject⟩ | ⟨hget, hobject⟩ <;>
    · rw [hget, hobject]
      rfl

theorem read? (h : Mirrors fs dir d) {c : Option String} (hc : IsCollectionName (collectionOf c))
    (hname : IsObjectName name) :
    (directory dir).read? fs c name = .ok (d.object? (collectionOf c) name) := by
  rw [Storage.read?, readFile?]
  rcases h.get_filePath hc hname with ⟨text, p, hget, hdecode, hobject⟩ | ⟨hget, hobject⟩
  · have htext : fs.readText (filePath dir (collectionOf c) name) = .ok text := by
      rw [Files.readText, hget]
      rfl
    rw [htext, hobject]
    dsimp only
    rw [hdecode]
  · rw [Files.readText, hget, hobject]
    rfl

theorem listNames (h : Mirrors fs dir d) {c : Option String} (hc : IsCollectionName (collectionOf c)) :
    (directory dir).listNames fs c = .ok (d.collection (collectionOf c)).names := by
  rw [Storage.listNames, listFiles, Files.readDir]
  rcases h.get_collectionPath hc with ⟨entries, hget, hnames⟩ | ⟨hget, hnames⟩
  · rw [hget, ← hnames]
    rfl
  · rw [hget, hnames]
    rfl

theorem collectionNames (h : Mirrors fs dir d) :
    ∃ cs, (directory dir).collectionNames fs = .ok cs ∧ ∀ c, c ∈ cs ↔ c ∈ d.collectionNames := by
  obtain ⟨place, t, hseat, hstores⟩ := h.tree
  refine ⟨_, rfl, fun c => ?_⟩
  rw [mem_collectionsIn_iff hseat hstores.ordered, hstores.mem_collectionNames_iff]

theorem objects (h : Mirrors fs dir d) (hc : IsCollectionName c) :
    (directory dir).objects fs (some c) = .ok (d.collection c) := by
  have hc' : IsCollectionName (collectionOf (some c)) := hc
  refine Except.bind_eq_ok_iff.mpr ⟨_, h.listNames hc', readMultiple_eq ?_⟩
  refine exists_readEach_of fun name hname => h.read? hc' ?_
  rw [NameMap.mem_names_iff] at hname
  exact h.isObjectName hname

/-- The export is that of the snapshot. -/
theorem exportAll (h : Mirrors fs dir d) : (directory dir).exportAll fs = .ok d.exported := by
  obtain ⟨cs, hcs, hmem⟩ := h.collectionNames
  refine exportAll_eq (fun c hc => h.objects ?_) hcs hmem
  rcases hc with rfl | hc
  · exact .inl rfl
  · obtain ⟨-, name, hsome⟩ := Snapshot.mem_collectionNames_iff.mp ((hmem c).mp hc)
    obtain ⟨o, ho⟩ := Option.isSome_iff_exists.mp hsome
    obtain ⟨place, t, -, hstores⟩ := h.tree
    exact (hstores.named c name o ho).1

end Mirrors

end Storage

end Cookbook
