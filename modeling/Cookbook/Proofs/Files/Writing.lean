import Cookbook.Proofs.Files.Making

/-!
# Writing a file

A file is written at the place where its path leads, and nothing else changes: what was there is
still there, and every path that led to something leads to the same. So whether writing one file
changes what is read from another is a question of whether the two paths lead to the same place.

Paths are arbitrary here. All that is asked is that there is a directory where following the path
starts, which is so as soon as a path with the same start leads anywhere.

## Main definitions

* `Files.Starts`: following a path starts at a directory.
* `Files.Written`: a file is written at a place.

## Main results

* `Files.exists_written`: what a file that could be written leaves.
* `Files.Written.readText`: what is read from another path afterwards.
* `Files.createDirectories_of_locate_join`: a directory that something is found in need not be made.
-/

namespace Cookbook

namespace Files

variable {fs fs' : Files} {p q : Path} {place names start pieces : List String} {n m s : String}
  {content : FileContent}

/-! ### Where paths start -/

/-- Following a path starts at a directory. -/
def Starts (fs : Files) (p : Path) : Prop :=
  fs.tree.look (if p.isAbsolute then [] else fs.working) = some none

theorem Starts.look (h : fs.Starts p) (hp : p.text ≠ "")
    (horigin : fs.origin p = .ok (start, pieces)) : fs.tree.look start = some none := by
  rw [Starts] at h
  rcases origin_cases hp horigin with ⟨habs, rfl, -⟩ | ⟨habs, rfl, -⟩
  · rwa [habs, if_pos rfl] at h
  · rwa [habs, if_neg Bool.false_ne_true] at h

theorem starts_of_locate (h : fs.locate p = .ok place) : fs.Starts p := by
  obtain ⟨hp, start, pieces, horigin, hfold⟩ := exists_of_locate h
  have hway : ([] ++ pieces).foldlM fs.step start = .ok place := hfold
  obtain ⟨here, entries, hhere, -, hdir, -⟩ :=
    exists_dir_of_foldlM_step (pieces_ne_nil hp horigin) hway
  cases hhere
  have hlook := FileTree.look_eq_dir_iff.mpr ⟨entries, hdir⟩
  rw [Starts]
  rcases origin_cases hp horigin with ⟨habs, rfl, -⟩ | ⟨habs, rfl, -⟩
  · rwa [habs, if_pos rfl]
  · rwa [habs, if_neg Bool.false_ne_true]

/-- Going on with a name does not change where a path starts. -/
theorem isAbsolute_join_name (hn : '/' ∉ n.toList) : (p.join n).isAbsolute = p.isAbsolute := by
  by_cases hp : p.text = ""
  · have hjoin : p.join n = ⟨n⟩ := by simp [Path.join, hp]
    rw [hjoin, Path.isAbsolute, Path.isAbsolute, hp, Text.hasStart_eq_false hn]
    rfl
  · have hempty : p.text.isEmpty = false := by simpa using hp
    obtain ⟨c, cs, hchars⟩ :=
      List.exists_cons_of_ne_nil (fun hnil => hp (String.toList_eq_nil_iff.mp hnil))
    have hstart : ∀ t : String, Text.hasStart "/" (p.text ++ t) = Text.hasStart "/" p.text := by
      intro t
      have hslash : "/".toList = ['/'] := rfl
      rw [Text.hasStart, Text.hasStart, String.toList_append, hchars, List.cons_append, hslash]
      by_cases hc : '/' = c
      · simp only [Text.dropStart?, if_pos hc, Option.isSome_some]
      · simp only [Text.dropStart?, if_neg hc]
    rw [Path.join, Text.hasStart_eq_false hn, hempty, Bool.or_false, if_neg Bool.false_ne_true]
    split
    · exact hstart n
    · rw [Path.isAbsolute, String.append_assoc]
      exact hstart _

theorem starts_join_iff (hn : '/' ∉ n.toList) : fs.Starts (p.join n) ↔ fs.Starts p := by
  rw [Starts, Starts, isAbsolute_join_name hn]

/-- A directory that something is found in need not be made. -/
theorem createDirectories_of_locate_join (hn : '/' ∉ n.toList)
    (h : fs.locate (p.join n) = .ok place) : fs.createDirectories p = .ok fs := by
  by_cases hp : p.text = ""
  · rw [show p = ⟨""⟩ from congrArg Path.mk hp]
    rfl
  · obtain ⟨above, entries, habove, hdir, -⟩ := locate_of_join hp (Text.hasStart_eq_false hn) h
    exact Seat.createDirectories_eq ⟨habove, hdir, rfl⟩

/-! ### What is written -/

/-- A file is written at a place, which a path leads to, and nothing else is changed. -/
structure Written (fs fs' : Files) (p : Path) (place : List String) (content : FileContent) :
    Prop where
  locate : fs'.locate p = .ok place
  look : ∀ names, fs'.tree.look names
    = if names = place then some (some content) else fs.tree.look names
  free : fs.tree.look place ≠ some none
  working : fs'.working = fs.working
  nameLimit : fs'.nameLimit = fs.nameLimit

namespace Written

theorem keepsDirs (h : fs.Written fs' p place content) : fs.KeepsDirs fs' where
  dirs names hdir := by
    rw [h.look, if_neg, hdir]
    rintro rfl
    exact h.free hdir
  working := h.working
  nameLimit := h.nameLimit

/-- Paths lead to what was there as before. -/
theorem locate_of_look (h : fs.Written fs' p place content) (hq : fs.locate q = .ok names)
    (hthere : fs.tree.look names ≠ none) : fs'.locate q = .ok names := by
  refine h.keepsDirs.locate_of_look hq ?_
  rw [h.look]
  split
  · exact Option.some_ne_none _
  · exact hthere

theorem starts (h : fs.Written fs' p place content) (hq : fs.Starts q) : fs'.Starts q := by
  rw [Starts, h.working]
  exact h.keepsDirs.dirs _ hq

end Written

theorem readText_eq_ok_iff : fs.readText p = .ok s ↔
    ∃ place, fs.locate p = .ok place ∧ fs.tree.look place = some (some (.text s)) := by
  rw [readText, Except.bind_eq_ok_iff]
  constructor
  · rintro ⟨t, ht, h⟩
    obtain ⟨place, hplace, hget⟩ := Except.bind_eq_ok_iff.mp ht
    refine ⟨place, hplace, FileTree.look_eq_file_iff.mpr ?_⟩
    split at hget
    · rename_i u hu
      cases hget
      split at h
      · cases h
        exact hu
      · cases h
      · cases h
    · cases hget
  · rintro ⟨place, hplace, hlook⟩
    refine ⟨.file (.text s), Except.bind_eq_ok_iff.mpr ⟨place, hplace, ?_⟩, rfl⟩
    rw [FileTree.look_eq_file_iff.mp hlook]
    rfl

namespace Written

/-- What is read afterwards: from a path to the same place the text that was written, and from any
other what was read before. -/
theorem readText {text : String} (h : fs.Written fs' p place (.text text))
    (hq : fs.readText q = .ok s) : fs'.readText q
      = .ok (if fs'.locate q = fs'.locate p then text else s) := by
  obtain ⟨names, hnames, hlook⟩ := readText_eq_ok_iff.mp hq
  have hlocate : fs'.locate q = .ok names :=
    h.locate_of_look hnames (by rw [hlook]; exact Option.some_ne_none _)
  refine readText_eq_ok_iff.mpr ⟨names, hlocate, ?_⟩
  rw [h.look, h.locate, hlocate]
  by_cases heq : names = place
  · rw [if_pos heq, if_pos (congrArg _ heq)]
  · rw [if_neg heq, if_neg fun hok => heq (Except.ok.inj hok), hlook]

end Written

/-! ### Where a file is written -/

theorem ofPiece?_of_ne (hskip : ¬(n = "" ∨ n = ".")) (hup : n ≠ "..") :
    ofPiece? n = some (.entry n) := by
  unfold ofPiece?
  split <;> simp_all

/-- A step leads to a directory, or to an entry of its name. -/
theorem step_cases (h : fs.step place n = .ok names) : fs.tree.look names = some none ∨
    names = place ++ [n] ∧ ofPiece? n = some (.entry n) ∧ fs.isName n = true ∧
      fs.tree.look names ≠ none := by
  have hdir := FileTree.look_eq_dir_iff.mpr (exists_dir_of_step h)
  rw [step_of_dir hdir] at h
  split at h
  · cases h
    exact .inl hdir
  rename_i hskip
  split at h
  · cases h
    -- above a directory is a directory, and the top is above itself
    rcases List.eq_nil_or_concat' place with rfl | ⟨above, last, rfl⟩
    · exact .inl hdir
    · rw [List.dropLast_concat]
      exact .inl (FileTree.look_above (by rw [hdir]; exact Option.some_ne_none _) (by simp))
  rename_i hup
  split at h
  · cases h
  rename_i hname
  split at h
  · rename_i hsome
    cases h
    exact .inr ⟨rfl, ofPiece?_of_ne hskip hup, by simpa using hname,
      Option.isSome_iff_ne_none.mp hsome⟩
  · cases h

/-- A step from a directory finds nothing only where there is no entry of its name. -/
theorem look_of_step_notFound (hdir : fs.tree.look place = some none)
    (h : fs.step place n = .error .notFound) : ofPiece? n = some (.entry n) ∧
      fs.isName n = true ∧ fs.tree.look (place ++ [n]) = none := by
  rw [step_of_dir hdir] at h
  split at h
  · cases h
  rename_i hskip
  split at h
  · cases h
  rename_i hup
  split at h
  · cases h
  rename_i hname
  split at h
  · cases h
  · rename_i hnone
    exact ⟨ofPiece?_of_ne hskip hup, by simpa using hname, Option.not_isSome_iff_eq_none.mp hnone⟩

/-- Nothing is found only in a directory, if there is anything. -/
theorem dir_of_step_notFound (hthere : fs.tree.look place ≠ none)
    (h : fs.step place n = .error .notFound) : fs.tree.look place = some none := by
  rw [step] at h
  split at h
  · rename_i hnone
    exact absurd (FileTree.look_eq_none_iff.mpr hnone) hthere
  · cases h
  · rename_i entries hget
    exact FileTree.look_eq_dir_iff.mpr ⟨entries, hget⟩

theorem isPiece_of_origin (hp : p.text ≠ "") (horigin : fs.origin p = .ok (start, pieces))
    (hn : n ∈ pieces) : IsPiece n := by
  have hpath : isPath p = true := by
    rw [origin] at horigin
    split at horigin
    · cases horigin
    · rename_i hpath
      simpa using hpath
  refine isPiece_of_mem_split hpath ?_
  rcases origin_cases hp horigin with ⟨-, -, hsplit⟩ | ⟨-, -, hsplit⟩
  · rw [hsplit]
    exact List.mem_cons_of_mem _ hn
  · rwa [hsplit]

/-- Following pieces leads to what is there. -/
theorem look_of_foldlM_step (hstart : fs.tree.look start ≠ none)
    (h : pieces.foldlM fs.step start = .ok names) : fs.tree.look names ≠ none := by
  refine Except.foldlM_invariant (P := fun names => fs.tree.look names ≠ none)
    (fun _ _ _ _ names hstep => ?_) hstart h
  rcases step_cases hstep with hdir | ⟨-, -, -, hthere⟩
  · rw [hdir]
    exact Option.some_ne_none _
  · exact hthere

/-- What a file that could be written leaves. -/
theorem exists_written (hstart : fs.Starts p) (h : fs.write p content = .ok fs') :
    ∃ place, fs.Written fs' p place content := by
  rw [write] at h
  split at h
  · cases h
  rename_i hempty
  have hp : p.text ≠ "" := by simpa using hempty
  obtain ⟨⟨start, pieces⟩, horigin, h⟩ := Except.bind_eq_ok_iff.mp h
  obtain ⟨way, last, rfl⟩ :=
    (List.eq_nil_or_concat' pieces).resolve_left (pieces_ne_nil hp horigin)
  dsimp only at h
  rw [List.dropLast_concat, List.getLast?_concat, Option.getD_some] at h
  obtain ⟨above, habove, h⟩ := Except.bind_eq_ok_iff.mp h
  -- the last step is one to an entry of a directory, which is there or not
  have hlast : fs.tree.look above = some none ∧ fs.Admits last ∧
      fs.tree.look (above ++ [last]) ≠ some none ∧
      fs' = { fs with tree := fs.tree.put (above ++ [last]) (.file content) } := by
    have hpiece : IsPiece last := isPiece_of_origin hp horigin List.mem_concat_self
    split at h
    · rename_i names hstep
      split at h
      · rename_i f hget
        cases h
        have hfile := FileTree.look_eq_file_iff.mpr hget
        rcases step_cases hstep with hdir | ⟨rfl, hentry, hname, -⟩
        · rw [hfile] at hdir
          cases hdir
        · exact ⟨FileTree.look_eq_dir_iff.mpr (exists_dir_of_step hstep), ⟨hentry, hpiece, hname⟩,
            by simp [hfile], rfl⟩
      · cases h
    · rename_i hstep
      cases h
      have hthere : fs.tree.look above ≠ none := by
        refine look_of_foldlM_step ?_ habove
        rw [hstart.look hp horigin]
        exact Option.some_ne_none _
      have hdir := dir_of_step_notFound hthere hstep
      obtain ⟨hentry, hname, hnone⟩ := look_of_step_notFound hdir hstep
      exact ⟨hdir, ⟨hentry, hpiece, hname⟩, by simp [hnone], rfl⟩
    · cases h
  obtain ⟨hdir, hadmits, hfree, rfl⟩ := hlast
  have hlook := FileTree.look_put hdir hfree fun _ => FileTree.look_file content
  have hkeeps : fs.KeepsDirs { fs with tree := fs.tree.put (above ++ [last]) (.file content) } := by
    refine ⟨fun names hnames => ?_, rfl, rfl⟩
    rw [hlook, if_neg, hnames]
    rintro rfl
    exact hfree hnames
  refine ⟨above ++ [last], ?_, hlook, hfree, rfl, rfl⟩
  have hdir' := hkeeps.dirs above hdir
  have hway := hkeeps.foldlM_step habove (by rw [hdir']; exact Option.some_ne_none _)
  have hstep := step_entry hdir' (hadmits.of_nameLimit hkeeps.nameLimit)
  rw [hlook, if_pos rfl] at hstep
  rw [locate, if_neg hempty]
  refine Except.bind_eq_ok_iff.mpr ⟨(start, way ++ [last]), horigin, ?_⟩
  dsimp only
  rw [List.foldlM_append, hway]
  exact (congrArg (· >>= fun s => pure s) hstep :)

end Files

end Cookbook
