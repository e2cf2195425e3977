import Cookbook.Proofs.Storage.Backends
import Mathlib.Data.List.Pairwise
import Mathlib.Data.String.Basic

/-!
# The order in which collections are listed

In memory the collections that hold objects are listed by name, and where storages are merged their
names are sorted again. A directory is gone through path by path instead, and a path is compared
segment by segment. That is another order: a name that ends comes before the names that go on, so
that a dot comes before all other characters of a segment, while in the order of names there are
characters in front of the dot. The directory of `a.c` is found before that of `a-b`, and its name
comes after it.

So a directory lists each of its collections once, as memory does, but in the order of names only if
no two of them are told apart by a dot in one and such a character in the other. A storage that
passes the list of a directory on passes its order on too.

What is in the directory does not matter, and neither does how it came there: the directory was
empty, and objects of collections were written to it and deleted from it.

## Main definitions

* `Text.Swaps`: two texts that are in another order piece by piece.
* `Storage.Kept`: a directory with what was written to it.
* `Storage.directories`, `Storage.inPathOrder`: the directories that a storage lists, and whether it
  passes the list of one of them on.

## Main results

* `Text.lt_of_swaps`, `Text.lt_or_swaps_of_lt`: how the two orders differ.
* `Storage.Kept.shelved`: whatever is written and deleted, there are only collections.
* `Storage.listed_of_kept`: what is listed, and in which order.
-/

namespace Cookbook

/-! ### Texts and their pieces -/

namespace Text

variable {sep : Char} {s t : List Char}

/-- Two texts are the same up to some place, where the first has the separator and the second a
character in front of it. -/
def Swaps (sep : Char) (s t : List Char) : Prop :=
  ∃ start s' t' c, s = start ++ sep :: s' ∧ t = start ++ c :: t' ∧ c < sep

theorem Swaps.cons (h : Swaps sep s t) (c : Char) : Swaps sep (c :: s) (c :: t) := by
  obtain ⟨start, s', t', c', rfl, rfl, hlt⟩ := h
  exact ⟨c :: start, s', t', c', rfl, rfl, hlt⟩

theorem exists_splitPieces_cons (sep : Char) (s : List Char) : ∃ p ps, splitPieces sep s = p :: ps ∧
    ∀ c, splitPieces sep (c :: s) = if c = sep then [] :: p :: ps else (c :: p) :: ps := by
  obtain ⟨p, ps, hs⟩ := List.exists_cons_of_ne_nil (splitPieces_ne_nil sep s)
  exact ⟨p, ps, hs, fun c => by rw [splitPieces, hs]⟩

theorem splitPieces_cons_lt_iff (c : Char) :
    splitPieces sep (c :: s) < splitPieces sep (c :: t) ↔ splitPieces sep s < splitPieces sep t := by
  obtain ⟨p, ps, hs, hcons⟩ := exists_splitPieces_cons sep s
  obtain ⟨q, qs, ht, hcons'⟩ := exists_splitPieces_cons sep t
  rw [hcons, hcons', hs, ht]
  split <;> simp [List.cons_lt_cons_iff]

/-- The two orders are opposite to each other. -/
theorem lt_of_swaps (h : Swaps sep s t) : splitPieces sep s < splitPieces sep t ∧ t < s := by
  obtain ⟨start, s', t', c, rfl, rfl, hlt⟩ := h
  induction start with
  | nil =>
    have hne : c ≠ sep := fun heq => Char.lt_irrefl c (by rwa [← heq] at hlt)
    obtain ⟨p, ps, -, hs⟩ := exists_splitPieces_cons sep s'
    obtain ⟨q, qs, -, ht⟩ := exists_splitPieces_cons sep t'
    refine ⟨?_, List.cons_lt_cons_iff.mpr (.inl hlt)⟩
    rw [List.nil_append, List.nil_append, hs, ht, if_pos rfl, if_neg hne]
    exact List.cons_lt_cons_iff.mpr (.inl (List.nil_lt_cons c q))
  | cons x start ih =>
    exact ⟨(splitPieces_cons_lt_iff x).mpr ih.1, List.cons_lt_cons_iff.mpr (.inr ⟨rfl, ih.2⟩)⟩

/-- Otherwise the order of the pieces is that of the texts. -/
theorem lt_or_swaps_of_lt (h : splitPieces sep s < splitPieces sep t) : s < t ∨ Swaps sep s t := by
  induction s generalizing t with
  | nil =>
    cases t with
    | nil => exact absurd h (List.lt_irrefl _)
    | cons y t => exact .inl (List.nil_lt_cons y t)
  | cons x s ih =>
    obtain ⟨p, ps, -, hs⟩ := exists_splitPieces_cons sep s
    cases t with
    | nil =>
      rw [hs, splitPieces] at h
      split at h <;> simp [List.cons_lt_cons_iff] at h
    | cons y t =>
      obtain ⟨q, qs, -, ht⟩ := exists_splitPieces_cons sep t
      rcases Std.lt_trichotomy x y with hlt | rfl | hlt
      · exact .inl (List.cons_lt_cons_iff.mpr (.inl hlt))
      · rw [splitPieces_cons_lt_iff] at h
        exact (ih h).imp (fun hlt => List.cons_lt_cons_iff.mpr (.inr ⟨rfl, hlt⟩)) (·.cons x)
      · -- the texts come in the other order, so a piece of the first one has ended
        by_cases hsep : x = sep
        · rw [hsep] at hlt
          exact .inr ⟨[], s, t, y, by rw [hsep]; rfl, rfl, hlt⟩
        · rw [hs, ht, if_neg hsep] at h
          have hne : x ≠ y := fun heq => Char.lt_irrefl x (by rwa [← heq] at hlt)
          split at h <;> simp [List.cons_lt_cons_iff, hne, Char.lt_asymm hlt] at h

end Text

namespace Storage

variable {fs : Files} {dir : Path} {place : List String} {t : FileTree} {s : Storage}
  {c c' name : String} {o : ConfigObject} {entries : List (String × FileTree)} {cs : List String}

theorem segments_lt_of_swaps (h : Text.Swaps '.' c.toList c'.toList) (hc : c ≠ defaultCollection)
    (hc' : c' ≠ defaultCollection) : segments c < segments c' ∧ c' < c := by
  obtain ⟨hpieces, hlt⟩ := Text.lt_of_swaps h
  refine ⟨?_, String.lt_iff_toList_lt.mpr hlt⟩
  rw [segments, segments, if_neg hc, if_neg hc']
  refine List.map_lt (fun x y hxy => String.lt_iff_toList_lt.mpr ?_) hpieces
  rwa [String.toList_ofList, String.toList_ofList]

theorem lt_or_swaps_of_segments_lt (h : segments c < segments c') (hc : c ≠ defaultCollection) :
    c < c' ∨ Text.Swaps '.' c.toList c'.toList := by
  rw [segments, segments, if_neg hc] at h
  split at h
  · exact absurd h (List.not_lt_nil _)
  · have hpieces := List.map_lt (fun x y hxy => String.lt_iff_toList_lt.mp hxy) h
    rw [Text.map_toList_split, Text.map_toList_split] at hpieces
    exact (Text.lt_or_swaps_of_lt hpieces).imp_left String.lt_iff_toList_lt.mpr

/-- Names that are in the order of their segments are in their own order too if no two of them swap,
and only then. -/
theorem pairwise_lt_iff (hcs : ∀ c ∈ cs, c ≠ defaultCollection)
    (horder : cs.Pairwise fun c c' => segments c < segments c') : cs.Pairwise (· < ·) ↔
      ∀ c ∈ cs, ∀ c' ∈ cs, ¬Text.Swaps '.' c.toList c'.toList := by
  constructor
  · intro hlt c hc c' hc' hswaps
    obtain ⟨hsegments, hback⟩ := segments_lt_of_swaps hswaps (hcs c hc) (hcs c' hc')
    have hne : c ≠ c' := by
      rintro rfl
      exact String.lt_irrefl c hback
    -- one of the two comes first, in both orders
    have hboth : cs.Pairwise fun c c' => (c < c' ∧ segments c < segments c') ∨
        (c' < c ∧ segments c' < segments c) :=
      (hlt.and horder).imp .inl
    have : Std.Symm fun c c' : String => (c < c' ∧ segments c < segments c') ∨
        (c' < c ∧ segments c' < segments c) := ⟨fun _ _ => Or.symm⟩
    rcases hboth.forall hc hc' hne with ⟨hforth, -⟩ | ⟨-, hforth⟩
    · exact String.lt_irrefl c (String.lt_trans hforth hback)
    · exact List.lt_irrefl _ (List.lt_trans hsegments hforth)
  · intro hno
    exact horder.imp_of_mem fun hc hc' hlt =>
      (lt_or_swaps_of_segments_lt hlt (hcs _ hc)).resolve_right (hno _ hc _ hc')

/-! ### What is in a directory -/

/-- A path leads to a directory with nothing but directories of collections and files of objects.
Names are not limited, so that every object can have its file. -/
structure Shelved (fs : Files) (dir : Path) : Prop where
  nameLimit : fs.nameLimit = none
  tree : ∃ place t, fs.Seat dir place t ∧ Shelves t

theorem sortNames_eq_nil_iff {l : List String} : sortNames l = [] ↔ l = [] := by
  rw [← List.length_eq_zero_iff, sortNames, List.length_mergeSort, List.length_eq_zero_iff]

namespace Shelved

/-- The collections of a directory are listed in the order of their segments. -/
theorem pairwise_collectionsIn (h : Shelved fs dir) :
    (collectionsIn fs dir).Pairwise fun c c' => segments c < segments c' := by
  obtain ⟨place, t, hseat, hshelves⟩ := h.tree
  rw [collectionsIn, hseat.get_self, List.pairwise_filterMap]
  refine (FileTree.pairwise_walk hshelves.ordered).imp_of_mem ?_
  have hsegments : ∀ names entries, (names, .dir entries) ∈ t.walk [] →
      segments (".".intercalate names) = names := fun names entries hmem =>
    hshelves.segments_of_get? ((FileTree.mem_walk_iff hshelves.ordered).mp hmem).2
  rintro ⟨names, u⟩ ⟨names', u'⟩ hmem hmem' hlt c hc c' hc'
  cases u with
  | file f => cases hc
  | dir entries =>
    cases u' with
    | file f => cases hc'
    | dir entries' =>
      dsimp only at hc hc'
      rw [Option.ite_none_left_eq_some, Option.some.injEq] at hc hc'
      rw [← hc.2, ← hc'.2, hsegments names entries hmem, hsegments names' entries' hmem']
      exact hlt

/-- What is listed in the directory of a collection. -/
theorem exists_listFiles (h : Shelved fs dir) (hc : IsCollectionName c) :
    ∃ names, listFiles fs dir c = .ok names ∧
      (c ∈ collectionsIn fs dir ↔ c ≠ defaultCollection ∧ names ≠ []) := by
  obtain ⟨place, t, hseat, hshelves⟩ := h.tree
  have hget := hshelves.get_collectionPath h.nameLimit hseat hc
  have hmem : c ∈ collectionsIn fs dir ↔ c ≠ defaultCollection ∧
      ∃ entries, t.get? (segments c) = some (.dir entries) ∧ objectNames entries ≠ [] := by
    rw [mem_collectionsIn_iff hseat hshelves.ordered]
    constructor
    · rintro ⟨names, entries, hne, hentries, hempty, rfl⟩
      have hsegments := hshelves.segments_of_get? hentries
      rw [hsegments]
      refine ⟨fun hdefault => hne ?_, entries, hentries, by simpa using hempty⟩
      rw [← hsegments, hdefault]
      rfl
    · rintro ⟨hne, entries, hentries, hobjects⟩
      exact ⟨segments c, entries, fun hnil => hne (segments_inj (hnil.trans rfl)), hentries,
        by simpa using hobjects, (intercalate_segments c).symm⟩
  rw [listFiles, Files.readDir, hget, hmem]
  cases hu : t.get? (segments c) with
  | none => exact ⟨[], rfl, by simp⟩
  | some u =>
    cases u with
    | dir entries =>
      refine ⟨_, rfl, ?_⟩
      simp [sortNames_eq_nil_iff]
    | file f =>
      exact absurd (FileTree.look_eq_file_iff.mpr hu)
        (hshelves.look_ne_file (isSegment_of_mem hc) f)

/-- Writing an object keeps it, whether or not the object has a text. -/
theorem writeFile (h : Shelved fs dir) (hc : IsCollectionName c) (hname : IsObjectName name)
    (o : ConfigObject) : Shelved (writeFile fs (filePath dir c name) o).2 dir := by
  obtain ⟨place, t, hseat, hshelves⟩ := h.tree
  obtain ⟨fs', t', hcreate, hlimit, hseat', hmade⟩ :=
    hshelves.exists_createDirectories h.nameLimit hseat hc hname
  have hmade' := hshelves.made (isSegment_of_mem hc) hmade
  cases ho : ConfigObject.encode o with
  | error e =>
    rw [writeFile_eq_error hcreate ho]
    exact ⟨hlimit, place, t', hseat', hmade'⟩
  | ok text =>
    obtain ⟨fs'', hwrite, hlimit', hseat''⟩ :=
      hmade'.exists_write hlimit hseat' hc hname hmade.look_self (.text text)
    rw [writeFile_eq_ok hcreate ho hwrite]
    exact ⟨hlimit', place, _, hseat'', hmade'.put hc hname hmade.look_self _⟩

/-- Deleting an object keeps it, whether or not the object is there. -/
theorem deleteFile (h : Shelved fs dir) (hc : IsCollectionName c) (hname : IsObjectName name) :
    Shelved (deleteFile fs (filePath dir c name)).2 dir := by
  obtain ⟨place, t, hseat, hshelves⟩ := h.tree
  rcases hshelves.removeFile_cases h.nameLimit hseat hc hname with
    ⟨hremove, -⟩ | ⟨fs', f, hremove, -, hdir, hlimit, hseat'⟩
  · rw [Storage.deleteFile, hremove]
    exact h
  · rw [Storage.deleteFile, hremove]
    exact ⟨hlimit, place, _, hseat', hshelves.remove hdir⟩

end Shelved

/-- A directory was empty, and objects of collections were written to it and deleted from it since
then, whether or not that succeeded. Names are not limited, so that every collection can have its
directory. -/
inductive Kept (dir : Path) : Files → Prop where
  | empty {fs : Files} : fs.nameLimit = none → fs.get dir = .ok (.dir []) → Kept dir fs
  | write {fs : Files} {c : Option String} {name : String} (o : ConfigObject) : Kept dir fs →
    IsCollectionName (collectionOf c) → IsObjectName name →
    Kept dir ((directory dir).write fs c name o).2.2
  | delete {fs : Files} {c : Option String} {name : String} : Kept dir fs →
    IsCollectionName (collectionOf c) → IsObjectName name →
    Kept dir ((directory dir).delete fs c name).2.2

theorem Kept.shelved (h : Kept dir fs) : Shelved fs dir := by
  induction h with
  | empty hlimit hdir =>
    obtain ⟨place, hseat⟩ := Files.exists_seat hdir
    exact ⟨hlimit, place, .dir [], hseat, .empty⟩
  | @write fs c name o _ hc hname ih =>
    -- what is written is not taken apart here: the invariant is about any write
    have hfiles := ih.writeFile hc hname o
    rw [Storage.write]
    generalize Storage.writeFile fs (filePath dir (collectionOf c) name) o = r at hfiles ⊢
    exact hfiles
  | @delete fs c name _ hc hname ih =>
    have hfiles := ih.deleteFile hc hname
    rw [Storage.delete]
    generalize Storage.deleteFile fs (filePath dir (collectionOf c) name) = r at hfiles ⊢
    exact hfiles

/-! ### Listing the collections of a storage -/

/-- The directories whose collections a storage lists. -/
def directories : Storage → List Path
  | directory dir => [dir]
  | merged first second => first.directories ++ second.directories
  | overriding _ wrapped => wrapped.directories
  | selecting none active => active.directories
  | within _ s => s.directories
  | null | memory _ | view _ | selecting (some _) _ => []

/-- Whether what a storage lists is what a directory lists. -/
def inPathOrder : Storage → Bool
  | directory _ => true
  | overriding _ wrapped => wrapped.inPathOrder
  | selecting none active => active.inPathOrder
  | within _ s => s.inPathOrder
  | null | memory _ | view _ | merged .. | selecting (some _) _ => false

/-- A storage lists the collections that hold objects, in the order it has them in. -/
structure Lists (fs : Files) (s : Storage) (cs : List String) : Prop where
  collectionNames : s.collectionNames fs = .ok cs
  objects : ∀ c, IsCollectionName c → ∃ names, s.listNames fs (some c) = .ok names ∧
    (c ∈ cs ↔ c ≠ defaultCollection ∧ names ≠ [])
  order : if s.inPathOrder then cs.Pairwise fun c c' => segments c < segments c'
    else cs.Pairwise (· < ·)

theorem lists_null : Lists fs null [] where
  collectionNames := rfl
  objects c _ := ⟨[], rfl, by simp⟩
  order := List.Pairwise.nil

theorem lists_snapshot {m : Snapshot} (hcollections : s.collectionNames fs = .ok m.collectionNames)
    (hnames : ∀ c, s.listNames fs (some c) = .ok (m.collection c).names)
    (horder : s.inPathOrder = false) : Lists fs s m.collectionNames where
  collectionNames := hcollections
  objects c _ := by
    refine ⟨_, hnames c, ?_⟩
    rw [Snapshot.mem_collectionNames]
    simp [NameMap.isEmpty, NameMap.names]
  order := by
    rw [horder]
    exact NameMap.ascending _

theorem lists_directory (h : Shelved fs dir) : Lists fs (directory dir) (collectionsIn fs dir) where
  collectionNames := rfl
  objects _ hc := h.exists_listFiles hc
  order := h.pairwise_collectionsIn

theorem lists_merged {first second : Storage} {cs₁ cs₂ : List String} (h₁ : Lists fs first cs₁)
    (h₂ : Lists fs second cs₂) :
    Lists fs (merged first second) (NameMap.distinctNames (cs₁ ++ cs₂)) where
  collectionNames := by
    rw [Storage.collectionNames, h₁.collectionNames, h₂.collectionNames]
    rfl
  objects c hc := by
    obtain ⟨names₁, hnames₁, hmem₁⟩ := h₁.objects c hc
    obtain ⟨names₂, hnames₂, hmem₂⟩ := h₂.objects c hc
    refine ⟨NameMap.distinctNames (names₁ ++ names₂), by rw [listNames, hnames₁, hnames₂]; rfl, ?_⟩
    have hempty : NameMap.distinctNames (names₁ ++ names₂) = [] ↔ names₁ = [] ∧ names₂ = [] := by
      rw [← List.append_eq_nil_iff]
      simp only [List.eq_nil_iff_forall_not_mem, NameMap.mem_distinctNames]
    rw [NameMap.mem_distinctNames, List.mem_append, hmem₁, hmem₂, ← and_or_left, ← not_and_or,
      ← hempty]
  order := NameMap.ascending _

/-- Every storage lists the collections that hold objects. -/
theorem exists_lists (h : ∀ dir ∈ s.directories, Shelved fs dir) : ∃ cs, Lists fs s cs := by
  induction s with
  | null => exact ⟨[], lists_null⟩
  | memory m => exact ⟨_, lists_snapshot (m := m) rfl (fun _ => rfl) rfl⟩
  | directory dir => exact ⟨_, lists_directory (h dir (List.mem_singleton_self dir))⟩
  | view m => exact ⟨_, lists_snapshot (m := m) rfl (fun _ => rfl) rfl⟩
  | merged first second ih₁ ih₂ =>
    obtain ⟨cs₁, h₁⟩ := ih₁ fun dir hdir => h dir (List.mem_append_left _ hdir)
    obtain ⟨cs₂, h₂⟩ := ih₂ fun dir hdir => h dir (List.mem_append_right _ hdir)
    exact ⟨_, lists_merged h₁ h₂⟩
  | overriding recipe wrapped _ ih =>
    obtain ⟨cs, hcs⟩ := ih h
    exact ⟨cs, hcs.collectionNames, hcs.objects, hcs.order⟩
  | selecting selected active ih =>
    cases selected with
    | none =>
      obtain ⟨cs, hcs⟩ := ih h
      exact ⟨cs, hcs.collectionNames, hcs.objects, hcs.order⟩
    | some m => exact ⟨_, lists_snapshot (m := m) rfl (fun _ => rfl) rfl⟩
  | within _ s ih =>
    obtain ⟨cs, hcs⟩ := ih h
    exact ⟨cs, hcs.collectionNames, hcs.objects, hcs.order⟩

/-- **Which collections are listed, and in which order.** A storage on directories that were filled
through storages lists each collection other than the default one that holds objects, and lists it
once. The names are in ascending order, unless the list is that of a directory: that is in the order
of the segments, and so it is ascending only if no two of its names swap. -/
theorem listed_of_kept (h : ∀ dir ∈ s.directories, Kept dir fs) :
    ∃ cs, s.collectionNames fs = .ok cs ∧ cs.Nodup ∧
      (∀ c, IsCollectionName c → ∃ names, s.listNames fs (some c) = .ok names ∧
        (c ∈ cs ↔ c ≠ defaultCollection ∧ names ≠ [])) ∧
      (s.inPathOrder = true → cs.Pairwise fun c c' => segments c < segments c') ∧
      (cs.Pairwise (· < ·) ↔ (s.inPathOrder = true →
        ∀ c ∈ cs, ∀ c' ∈ cs, ¬Text.Swaps '.' c.toList c'.toList)) := by
  obtain ⟨cs, hcs⟩ := exists_lists fun dir hdir => (h dir hdir).shelved
  have hdefault : ∀ c ∈ cs, c ≠ defaultCollection := by
    rintro c hc rfl
    obtain ⟨names, -, hmem⟩ := hcs.objects defaultCollection (.inl rfl)
    exact (hmem.mp hc).1 rfl
  have horder := hcs.order
  cases hpath : s.inPathOrder with
  | true =>
    rw [hpath, if_pos rfl] at horder
    refine ⟨cs, hcs.collectionNames, ?_, hcs.objects, fun _ => horder, ?_⟩
    · refine List.nodup_iff_pairwise_ne.mpr (horder.imp fun hlt heq => ?_)
      rw [heq] at hlt
      exact List.lt_irrefl _ hlt
    · simpa using pairwise_lt_iff hdefault horder
  | false =>
    rw [hpath, if_neg Bool.false_ne_true] at horder
    refine ⟨cs, hcs.collectionNames, ?_, hcs.objects, fun hno => ?_, ?_⟩
    · refine List.nodup_iff_pairwise_ne.mpr (horder.imp fun hlt heq => ?_)
      rw [heq] at hlt
      exact String.lt_irrefl _ hlt
    · cases hno
    · exact iff_of_true horder fun hno => by cases hno

/-- Files of a directory with an object in each of two collections that swap. -/
def dotAndDash : Files :=
  let fs := ((directory ⟨"/d"⟩).write Edit.emptyDirectory.files (some "a-b") "core.note"
    Edit.note).2.2
  ((directory ⟨"/d"⟩).write fs (some "a.c") "core.note" Edit.note).2.2

/-- The directory lists them the other way round than a storage that it is merged into. -/
theorem listed_of_dotAndDash :
    Kept ⟨"/d"⟩ dotAndDash ∧
    (directory ⟨"/d"⟩).collectionNames dotAndDash = .ok ["a.c", "a-b"] ∧
    ¬["a.c", "a-b"].Pairwise (· < ·) ∧
    (merged (directory ⟨"/d"⟩) null).collectionNames dotAndDash = .ok ["a-b", "a.c"] ∧
    ["a-b", "a.c"].Pairwise (· < ·) := by
  have hkept : Kept ⟨"/d"⟩ dotAndDash :=
    .write Edit.note (.write Edit.note (.empty rfl rfl) (by decide) (by decide)) (by decide)
      (by decide)
  have hfound : collectionsIn dotAndDash ⟨"/d"⟩ = ["a.c", "a-b"] := by decide +kernel
  have hlisted : (directory ⟨"/d"⟩).collectionNames dotAndDash = .ok ["a.c", "a-b"] :=
    congrArg Except.ok hfound
  have hmerged : (merged (directory ⟨"/d"⟩) null).collectionNames dotAndDash
      = .ok ["a-b", "a.c"] := by
    rw [collectionNames, hlisted]
    rfl
  refine ⟨hkept, hlisted, fun hlt => ?_, hmerged, ?_⟩
  · obtain ⟨cs, hcs, -, -, -, hiff⟩ :=
      listed_of_kept (s := directory ⟨"/d"⟩) (List.forall_mem_singleton.mpr hkept)
    cases hlisted.symm.trans hcs
    exact hiff.mp hlt rfl "a.c" (by decide) "a-b" (by decide)
      ⟨['a'], ['c'], ['b'], '-', rfl, rfl, by decide⟩
  · obtain ⟨cs, hcs, -, -, -, hiff⟩ :=
      listed_of_kept (s := merged (directory ⟨"/d"⟩) null) (List.forall_mem_singleton.mpr hkept)
    cases hmerged.symm.trans hcs
    exact hiff.mpr fun hno => by cases hno

end Storage

end Cookbook
