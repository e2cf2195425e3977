import Cookbook.Proofs.Files.Below
import Cookbook.Storage.Basic

/-!
# Where a directory keeps an object

A directory keeps an object in a file with the name of the object and an ending, in a directory that
has the segments of the collection's name on its path. From the names on that path both can be told
again: segments have no dots, so that the collection's name is put together from them with dots, and
the name of a file has a dot. So no two objects share a file, and no file is where a directory of a
collection is.

## Main definitions

* `Storage.segments`, `Storage.entry`: the names that lead to a collection and to an object.
* `Storage.IsCollectionName`, `Storage.IsObjectName`: names that can be part of a path.

## Main results

* `Storage.filePath_eq`, `Storage.collectionPath_eq`: the paths in terms of these names.
* `Storage.segments_inj`, `Storage.entry_inj`: collections and objects are told from them.
* `Storage.objectName?_eq_some_iff`: which files hold objects.
-/

namespace Cookbook

namespace Text

/-- Other separators between the pieces. -/
theorem joinPieces_splitPieces_map (sep new : Char) (cs : List Char) :
    joinPieces new (splitPieces sep cs) = cs.map fun c => if c = sep then new else c := by
  induction cs with
  | nil => rfl
  | cons c rest ih =>
    obtain ⟨piece, pieces, hpieces⟩ :=
      List.exists_cons_of_ne_nil (splitPieces_ne_nil sep rest)
    rw [hpieces] at ih
    rw [splitPieces, List.map_cons, ← ih, hpieces]
    split
    · rfl
    · cases pieces <;> rfl

theorem map_toList_split (sep : Char) (t : String) :
    (split sep t).map String.toList = splitPieces sep t.toList := by
  simp [split, Function.comp_def]

theorem intercalate_split_dot (t : String) : ".".intercalate (split '.' t) = t := by
  have hdot : ".".toList = ['.'] := rfl
  refine String.toList_inj.mp ?_
  rw [toList_intercalate hdot, map_toList_split, joinPieces_splitPieces]

end Text

namespace Storage

variable {fs : Files} {dir : Path} {c d name n : String} {names : List String}

/-! ### Names -/

/-- The names of the directories that lead to a collection. -/
def segments (c : String) : List String :=
  if c = defaultCollection then [] else Text.split '.' c

/-- The names that lead to the file of an object. -/
def entry (c name : String) : List String := segments c ++ [name ++ ".yml"]

/-- A name that the directory of a collection can have. -/
structure IsSegment (n : String) : Prop where
  ne_empty : n ≠ ""
  no_dot : '.' ∉ n.toList
  piece : Files.IsPiece n

/-- The default collection, or one whose name consists of segments that can be pieces of a path. -/
def IsCollectionName (c : String) : Prop :=
  c = defaultCollection ∨ ∀ n ∈ Text.split '.' c, n ≠ "" ∧ Files.IsPiece n

/-- A name that an object in a file can have. -/
def IsObjectName (name : String) : Prop := name ≠ "" ∧ Files.IsPiece name

instance decidableIsPiece (n : String) : Decidable (Files.IsPiece n) :=
  inferInstanceAs (Decidable (_ ∧ _))

instance decidableIsCollectionName (c : String) : Decidable (IsCollectionName c) :=
  inferInstanceAs (Decidable (_ ∨ _))

instance decidableIsObjectName (name : String) : Decidable (IsObjectName name) :=
  inferInstanceAs (Decidable (_ ∧ _))

theorem isSegment_of_mem (hc : IsCollectionName c) : ∀ n ∈ segments c, IsSegment n := by
  intro n hn
  rw [segments] at hn
  split at hn
  · cases hn
  · rename_i hne
    obtain ⟨hempty, hpiece⟩ := hc.resolve_left hne n hn
    refine ⟨hempty, ?_, hpiece⟩
    obtain ⟨cs, hcs, rfl⟩ := List.mem_map.mp hn
    rw [String.toList_ofList]
    exact Text.not_mem_of_mem_splitPieces hcs

theorem intercalate_segments (c : String) : ".".intercalate (segments c) = c := by
  rw [segments]
  split
  · rename_i hc
    rw [hc]
    rfl
  · exact Text.intercalate_split_dot c

/-- A collection is told from the names that lead to it. -/
theorem segments_inj (h : segments c = segments d) : c = d := by
  rw [← intercalate_segments c, h, intercalate_segments]

theorem segments_intercalate (hnames : ∀ n ∈ names, IsSegment n) :
    segments (".".intercalate names) = names := by
  by_cases hne : names = []
  · rw [hne]
    rfl
  · have hsplit : Text.split '.' (".".intercalate names) = names :=
      Text.split_intercalate_of rfl hne fun n hn => (hnames n hn).no_dot
    rw [segments, if_neg, hsplit]
    intro hempty
    -- the empty text is one empty piece, and that is no segment
    rw [hempty] at hsplit
    exact (hnames "" (hsplit ▸ List.mem_singleton_self "")).ne_empty rfl

theorem isCollectionName_intercalate (hnames : ∀ n ∈ names, IsSegment n) :
    IsCollectionName (".".intercalate names) := by
  have hsegments := segments_intercalate hnames
  rw [segments] at hsegments
  split at hsegments
  · exact .inl ‹_›
  · refine .inr fun n hn => ?_
    rw [hsegments] at hn
    exact ⟨(hnames n hn).ne_empty, (hnames n hn).piece⟩

/-- An object is told from the names that lead to it. -/
theorem entry_inj {name' : String} (h : entry c name = entry d name') : c = d ∧ name = name' := by
  obtain ⟨hsegments, hname⟩ := List.append_inj' h rfl
  refine ⟨segments_inj hsegments, ?_⟩
  rw [List.cons.injEq] at hname
  exact (String.append_left_inj _).mp hname.1

/-- No file of an object is on the path of a collection. -/
theorem exists_not_isSegment (c name : String) : ∃ n ∈ entry c name, ¬IsSegment n :=
  ⟨name ++ ".yml", List.mem_concat_self, fun h => h.no_dot (by simp)⟩

/-! ### Names that files may have -/

theorem admits_segment (hlimit : fs.nameLimit = none) (h : IsSegment n) : fs.Admits n where
  entry := by
    rw [Files.ofPiece?]
    · exact h.ne_empty
    · rintro rfl
      exact h.no_dot (by decide)
    · rintro rfl
      exact h.no_dot (by decide)
  piece := h.piece
  isName := by rw [Files.isName, hlimit]; rfl

theorem admits_file (hlimit : fs.nameLimit = none) (h : IsObjectName name) :
    fs.Admits (name ++ ".yml") where
  entry := Files.ofPiece?_yml name
  piece := by
    refine ⟨?_, ?_⟩
    · have := h.2.1
      simp [this]
    · have := h.2.2
      simp [this]
  isName := by rw [Files.isName, hlimit]; rfl

theorem admits_entry (hlimit : fs.nameLimit = none) (hc : IsCollectionName c)
    (hname : IsObjectName name) : ∀ n ∈ entry c name, fs.Admits n := by
  intro n hn
  rcases List.mem_append.mp hn with hn | hn
  · exact admits_segment hlimit (isSegment_of_mem hc n hn)
  · rw [List.mem_singleton.mp hn]
    exact admits_file hlimit hname

/-! ### Paths -/

theorem collectionPath_eq (hc : c ≠ defaultCollection) :
    collectionPath dir c = dir.join ("/".intercalate (segments c)) := by
  have hslash : "/".toList = ['/'] := rfl
  rw [collectionPath, if_neg hc, segments, if_neg hc]
  refine congrArg dir.join (String.toList_inj.mp ?_)
  rw [Text.toList_intercalate hslash, Text.map_toList_split, Text.joinPieces_splitPieces_map,
    String.toList_ofList]

/-- The path to the file of an object goes on from the directory with the names that lead to it. -/
theorem filePath_eq (hdir : dir.text ≠ "") (hc : IsCollectionName c) (hname : IsObjectName name) :
    filePath dir c name = dir.join ("/".intercalate (entry c name)) := by
  rw [filePath, entry]
  by_cases hdefault : c = defaultCollection
  · rw [collectionPath, segments, if_pos hdefault, if_pos hdefault, List.nil_append,
      String.intercalate_singleton]
  · rw [collectionPath_eq hdefault]
    have hadmits : ∀ n ∈ entry c name, Files.Admits { nameLimit := none } n :=
      admits_entry rfl hc hname
    refine Files.join_join hdir ?_ hadmits
    rw [segments, if_neg hdefault, Text.split, ne_eq, List.map_eq_nil_iff]
    exact Text.splitPieces_ne_nil _ _

/-! ### Objects from files -/

/-- A file name has two parts if it has a dot that is not in front; the last dot counts. -/
theorem splitExtension_eq_iff {file stem ext : String} :
    Path.splitExtension file = (stem, some ext) ↔
      stem ≠ "" ∧ '.' ∉ ext.toList ∧ file ≠ ".." ∧ file = stem ++ "." ++ ext := by
  constructor
  · intro h
    have hparts := List.takeWhile_append_dropWhile (p := (· != '.')) (l := file.toList.reverse)
    have hext := List.all_eq_true.mp
      (List.all_takeWhile (p := (· != '.')) (l := file.toList.reverse))
    have hhead := List.head?_dropWhile_not (· != '.') file.toList.reverse
    rw [Path.splitExtension] at h
    split at h
    · rename_i dot before hbefore
      rw [hbefore] at hparts hhead
      have hdot : dot = '.' := by simpa using hhead
      split at h
      · cases h
      · rename_i hwhole
        rw [Bool.or_eq_true, not_or, List.isEmpty_iff, beq_iff_eq] at hwhole
        obtain ⟨rfl, hlast⟩ := Prod.mk.inj h
        rw [← Option.some.inj hlast, Text.afterLast]
        refine ⟨?_, ?_, hwhole.2, ?_⟩
        · intro hempty
          exact hwhole.1 (by simpa using congrArg String.toList hempty)
        · intro hmem
          simpa using hext '.' (by simpa using hmem)
        · rw [hdot] at hparts
          refine String.toList_inj.mp ?_
          have := congrArg List.reverse hparts
          simpa using this.symm
    · cases h
  · rintro ⟨hstem, hext, hfile, rfl⟩
    have hchars : (stem ++ "." ++ ext).toList.reverse
        = ext.toList.reverse ++ '.' :: stem.toList.reverse := by simp
    have hskip : ∀ c ∈ ext.toList.reverse, (c != '.') = true := by
      intro c hc
      rw [bne_iff_ne]
      rintro rfl
      exact hext (List.mem_reverse.mp hc)
    rw [Path.splitExtension, Text.afterLast, hchars, List.dropWhile_append_of_pos hskip,
      List.dropWhile_cons, if_neg (by simp), List.takeWhile_append_of_pos hskip,
      List.takeWhile_cons, if_neg (by simp)]
    simp [hfile, hstem]

/-- The files with objects are those with the ending and something in front of it. -/
theorem objectName?_eq_some_iff {file : String} :
    objectName? file = some name ↔ name ≠ "" ∧ file = name ++ ".yml" := by
  have hdots : ".." ≠ name ++ ".yml" := by
    intro h
    have := congrArg (·.toList.getLast?) h
    simp at this
  rw [objectName?]
  constructor
  · intro h
    split at h
    · rename_i stem hstem
      cases h
      obtain ⟨hne, -, -, hfile⟩ := splitExtension_eq_iff.mp hstem
      exact ⟨hne, by rw [hfile, String.append_assoc]; rfl⟩
    · cases h
  · rintro ⟨hne, rfl⟩
    have hstem : Path.splitExtension (name ++ ".yml") = (name, some "yml") :=
      splitExtension_eq_iff.mpr ⟨hne, by decide, hdots.symm, by rw [String.append_assoc]; rfl⟩
    rw [hstem]
    rfl

end Storage

end Cookbook
