import Cookbook.Proofs.Files.Places
import Cookbook.Proofs.Files.Trees

/-!
# Going on from a directory

A path to a directory can go on with names that are pieces of a path and nothing else, as `.` and
`..` are not. Then what file operations do is seen in the tree of the directory alone: they look at
or change the place of these names. That a path of any spelling still leads to the directory
afterwards is part of it: directories stay when files are written and removed.

## Main definitions

* `Files.Admits`: names that files and directories may have.
* `Files.KeepsDirs`: all directories stay where they are.
* `Files.Seat`: a path leads to a directory with a tree.

## Main results

* `Files.exists_seat`: a path that leads to a directory leads to the tree of it.
* `Files.Seat.get`: what a path leads to that goes on from a directory.
* `Files.Seat.write`, `Files.Seat.removeFile`: writing and removing a file.
* `Files.exists_writeText_of_isFile`: a file that is there can be written.
-/

namespace Cookbook

namespace Path

variable {p : Path} {above : List String} {n r : String}

/-- A path that goes on from another ends in its last name, with a separator in front; before that
it goes on with the other names. -/
theorem exists_text_join (hp : p.text ≠ "")
    (hstart : Text.hasStart "/" ("/".intercalate (above ++ [n])) = false) :
    ∃ a, (p.join ("/".intercalate (above ++ [n]))).text = a ++ "/" ++ n ∧
      if above = [] then (p.join "").text = a ++ "/"
      else (p.join ("/".intercalate above)).text = a := by
  have hempty : p.text.isEmpty = false := by simpa using hp
  by_cases habove : above = []
  · subst habove
    have hnothing : Text.hasStart "/" "" = false := rfl
    rw [List.nil_append, String.intercalate_singleton] at hstart ⊢
    simp only [↓reduceIte]
    rw [join, join, hstart, hnothing, hempty, Bool.or_false, if_neg Bool.false_ne_true,
      if_neg Bool.false_ne_true]
    split
    · rename_i hend
      obtain ⟨a, ha⟩ := Text.exists_of_hasEnd hend
      exact ⟨a, by rw [ha], by simp [ha]⟩
    · exact ⟨p.text, rfl, by simp⟩
  · have hsplit : "/".intercalate (above ++ [n]) = "/".intercalate above ++ "/" ++ n := by
      rw [String.intercalate_append_of_ne_nil habove (by simp), String.intercalate_singleton]
    have hstart' : Text.hasStart "/" ("/".intercalate above) = false := by
      rw [hsplit] at hstart
      rw [Text.hasStart, Option.isSome_eq_false_iff, Option.isNone_iff_eq_none] at hstart ⊢
      refine Option.eq_none_iff_forall_ne_some.mpr fun rest hrest => ?_
      rw [Text.dropStart?_eq_some_iff] at hrest
      refine Option.eq_none_iff_forall_ne_some.mp hstart (rest ++ ("/" ++ n).toList) ?_
      rw [Text.dropStart?_eq_some_iff, String.append_assoc, String.toList_append, hrest,
        List.append_assoc]
    refine ⟨_, ?_, by rw [if_neg habove]⟩
    rw [join, join, hstart, hstart', hempty, Bool.or_false, if_neg Bool.false_ne_true, hsplit]
    split <;> simp only [String.append_assoc, if_neg Bool.false_ne_true]

end Path

namespace Files

variable {fs fs' : Files} {p q : Path} {place here names above : List String} {n piece : String}
  {t u : FileTree}

/-! ### Names -/

/-- A name that a file or a directory may have: in a path it says to go on to an entry. -/
structure Admits (fs : Files) (n : String) : Prop where
  entry : ofPiece? n = some (.entry n)
  piece : IsPiece n
  isName : fs.isName n = true

theorem Admits.of_nameLimit (h : fs.Admits n) (hlimit : fs'.nameLimit = fs.nameLimit) :
    fs'.Admits n :=
  ⟨h.entry, h.piece, by rw [Files.isName, hlimit]; exact h.isName⟩

theorem ofPiece?_yml (name : String) :
    ofPiece? (name ++ ".yml") = some (.entry (name ++ ".yml")) := by
  -- what is no entry is shorter than the ending
  have hlong : 4 ≤ (name ++ ".yml").length := by
    rw [String.length_append]
    exact Nat.le_add_left 4 _
  generalize name ++ ".yml" = file at hlong
  rw [ofPiece?] <;> (rintro rfl; revert hlong; decide)

theorem hasStart_intercalate (hnames : ∀ n ∈ names, fs.Admits n) :
    Text.hasStart "/" ("/".intercalate names) = false := by
  by_contra hstart
  rw [Bool.not_eq_false] at hstart
  have hne : "/".intercalate names ≠ "" := by
    intro hempty
    rw [hempty] at hstart
    cases hstart
  have hnil : names ≠ [] := by
    rintro rfl
    exact hne String.intercalate_nil
  rcases Text.split_cases hne with ⟨-, rest, hsplit⟩ | ⟨hfalse, -⟩
  · rw [Text.split_intercalate hnil fun n hn => (hnames n hn).piece.1] at hsplit
    have hmem : "" ∈ names := by
      rw [hsplit]
      exact List.mem_cons_self ..
    exact (ne_of_entry (hnames "" hmem).entry).1 rfl
  · rw [hfalse] at hstart
    cases hstart

theorem isPath_intercalate (hnames : ∀ n ∈ names, fs.Admits n) :
    isPath ⟨"/".intercalate names⟩ = true := by
  rw [isPath, Bool.not_eq_true', List.contains_eq_mem, decide_eq_false_iff_not]
  intro hmem
  rcases Text.mem_intercalate hmem with heq | ⟨n, hn, hc⟩
  · revert heq
    decide
  · exact (hnames n hn).piece.2 hc

/-- Going on with names and then with another one is going on with all of them. -/
theorem join_join (hp : p.text ≠ "") (hne : names ≠ []) (hnames : ∀ m ∈ names ++ [n], fs.Admits m) :
    (p.join ("/".intercalate names)).join n = p.join ("/".intercalate (names ++ [n])) := by
  obtain ⟨a, htext, habove⟩ := Path.exists_text_join hp (hasStart_intercalate hnames)
  rw [if_neg hne] at habove
  rw [← habove] at htext
  obtain ⟨init, m, rfl⟩ := List.eq_nil_or_concat' names |>.resolve_left hne
  have hinit : ∀ k ∈ init ++ [m], fs.Admits k := fun k hk => hnames k (List.mem_append_left _ hk)
  have hm := hinit m List.mem_concat_self
  obtain ⟨b, htext', -⟩ := Path.exists_text_join hp (hasStart_intercalate hinit)
  -- the path ends in a name, so that the next name gets a separator in front
  have hend : Text.hasEnd "/" (p.join ("/".intercalate (init ++ [m]))).text = false := by
    rw [← Bool.not_eq_true]
    intro hend
    obtain ⟨s, hs⟩ := Text.exists_of_hasEnd hend
    have hlast := congrArg (·.toList.getLast?) (htext'.symm.trans hs)
    have hchars : m.toList ≠ [] := fun hnil =>
      (ne_of_entry hm.entry).1 (String.toList_eq_nil_iff.mp hnil)
    rw [String.toList_append, String.toList_append,
      List.getLast?_append_of_ne_nil _ hchars] at hlast
    exact hm.piece.1 (List.mem_of_getLast? (hlast.trans (by simp)))
  have hempty : (p.join ("/".intercalate (init ++ [m]))).text.isEmpty = false := by
    rw [htext']
    simp
  have hstart : Text.hasStart "/" n = false :=
    Text.hasStart_eq_false (hnames n List.mem_concat_self).piece.1
  rw [Path.join, hstart, hempty, hend]
  exact congrArg Path.mk htext.symm

/-! ### Steps -/

/-- What a step from a directory does, by what is at the places. -/
theorem step_of_dir (hdir : fs.tree.look here = some none) (n : String) : fs.step here n
    = if n = "" ∨ n = "." then .ok here
      else if n = ".." then .ok here.dropLast
      else if !fs.isName n then .error .badName
      else if (fs.tree.look (here ++ [n])).isSome then .ok (here ++ [n])
      else .error .notFound := by
  obtain ⟨entries, hget⟩ := FileTree.look_eq_dir_iff.mp hdir
  have hlook : (fs.tree.look (here ++ [n])).isSome = (NameMap.lookup n entries).isSome := by
    rw [FileTree.look_append hget, FileTree.look_dir_cons]
    cases NameMap.lookup n entries <;> simp
  rw [step, hget, hlook]

theorem step_entry (hdir : fs.tree.look here = some none) (hn : fs.Admits n) : fs.step here n
    = if (fs.tree.look (here ++ [n])).isSome then .ok (here ++ [n]) else .error .notFound := by
  obtain ⟨hempty, hdot, hup⟩ := ne_of_entry hn.entry
  rw [step_of_dir hdir, if_neg (not_or.mpr ⟨hempty, hdot⟩), if_neg hup, hn.isName]
  rfl

/-- Names are followed as long as there are directories. -/
theorem foldlM_step_entries (hnames : ∀ n ∈ names, fs.Admits n)
    (hdir : fs.tree.look here = some none)
    (hopen : ∀ above more, names = above ++ more → more ≠ [] →
      ∀ f, fs.tree.look (here ++ above) ≠ some (some f)) :
    names.foldlM fs.step here
      = if (fs.tree.look (here ++ names)).isSome then .ok (here ++ names)
        else .error .notFound := by
  induction names generalizing here with
  | nil =>
    rw [List.append_nil, hdir]
    rfl
  | cons n names ih =>
    rw [List.forall_mem_cons] at hnames
    rw [List.foldlM_cons, step_entry hdir hnames.1]
    have happend : here ++ n :: names = here ++ [n] ++ names := by simp
    rw [happend]
    by_cases hsome : (fs.tree.look (here ++ [n])).isSome = true
    · rw [if_pos hsome]
      by_cases hlast : names = []
      · subst hlast
        rw [List.append_nil, if_pos hsome]
        rfl
      · have hdir' : fs.tree.look (here ++ [n]) = some none := by
          obtain ⟨k, hk⟩ := Option.isSome_iff_exists.mp hsome
          cases k with
          | none => exact hk
          | some f => exact absurd hk (hopen [n] names rfl hlast f)
        refine ih hnames.2 hdir' fun above more heq hmore f => ?_
        have := hopen (n :: above) more (by rw [heq]; rfl) hmore f
        rwa [List.append_assoc]
    · have hnone : fs.tree.look (here ++ [n]) = none := by
        simpa [Option.not_isSome_iff_eq_none] using hsome
      have hbelow : fs.tree.look (here ++ [n] ++ names) = none := by
        by_cases hlast : names = []
        · rw [hlast, List.append_nil, hnone]
        · exact FileTree.look_below (by rw [hnone]; simp) hlast
      rw [if_neg hsome, hbelow]
      rfl

/-! ### Where directories stay -/

/-- All directories stay where they are. -/
structure KeepsDirs (fs fs' : Files) : Prop where
  dirs : ∀ names, fs.tree.look names = some none → fs'.tree.look names = some none
  working : fs'.working = fs.working
  nameLimit : fs'.nameLimit = fs.nameLimit

namespace KeepsDirs

/-- A step leads on as before if what it leads to is still there. -/
theorem step (h : fs.KeepsDirs fs') (hstep : fs.step here piece = .ok names)
    (hthere : fs'.tree.look names ≠ none) : fs'.step here piece = .ok names := by
  have hdir := FileTree.look_eq_dir_iff.mpr (exists_dir_of_step hstep)
  have hname : fs'.isName piece = fs.isName piece := by rw [isName, isName, h.nameLimit]
  rw [step_of_dir hdir] at hstep
  rw [step_of_dir (h.dirs here hdir), hname]
  by_cases hskip : piece = "" ∨ piece = "."
  · rwa [if_pos hskip] at hstep ⊢
  rw [if_neg hskip] at hstep ⊢
  by_cases hup : piece = ".."
  · rwa [if_pos hup] at hstep ⊢
  rw [if_neg hup] at hstep ⊢
  by_cases hlong : (!fs.isName piece) = true
  · rw [if_pos hlong] at hstep
    cases hstep
  rw [if_neg hlong] at hstep ⊢
  split at hstep
  · cases hstep
    rw [if_pos (Option.isSome_iff_ne_none.mpr hthere)]
  · cases hstep

theorem foldlM_step (h : fs.KeepsDirs fs') {pieces : List String}
    (hfold : pieces.foldlM fs.step here = .ok names) (hthere : fs'.tree.look names ≠ none) :
    pieces.foldlM fs'.step here = .ok names := by
  induction pieces generalizing here with
  | nil => exact hfold
  | cons piece pieces ih =>
    rw [List.foldlM_cons] at hfold ⊢
    obtain ⟨next, hnext, hfold⟩ := Except.bind_eq_ok_iff.mp hfold
    -- between two steps is a directory
    have hnext' : fs'.tree.look next ≠ none := by
      cases pieces with
      | nil =>
        cases hfold
        exact hthere
      | cons piece' pieces =>
        rw [List.foldlM_cons] at hfold
        obtain ⟨_, hnext', -⟩ := Except.bind_eq_ok_iff.mp hfold
        rw [h.dirs next (FileTree.look_eq_dir_iff.mpr (exists_dir_of_step hnext'))]
        exact Option.some_ne_none _
    rw [h.step hnext hnext']
    exact ih hfold

/-- Paths lead as before to what is still there. -/
theorem locate_of_look (h : fs.KeepsDirs fs') (hp : fs.locate p = .ok place)
    (hthere : fs'.tree.look place ≠ none) : fs'.locate p = .ok place := by
  have hpath := isPath_of_locate hp
  have hne := (exists_of_locate hp).1
  obtain ⟨first, rest, hsplit⟩ := List.exists_cons_of_ne_nil (Text.split_ne_nil p.text)
  rw [locate_of_split hne hpath hsplit] at hp ⊢
  by_cases hfirst : first = ""
  · rw [if_pos hfirst] at hp ⊢
    exact h.foldlM_step hp hthere
  · rw [if_neg hfirst] at hp ⊢
    rw [h.working]
    exact h.foldlM_step hp hthere

/-- Paths lead to directories as before. -/
theorem locate (h : fs.KeepsDirs fs') (hp : fs.locate p = .ok place)
    (hdir : fs.tree.look place = some none) : fs'.locate p = .ok place :=
  h.locate_of_look hp (by rw [h.dirs place hdir]; exact Option.some_ne_none _)

end KeepsDirs

/-! ### Paths that go on -/

theorem exists_origin_join {r : String} (hp : fs.locate p = .ok place) (hr : isPath ⟨r⟩ = true)
    (hstart : Text.hasStart "/" r = false) : ∃ start way,
      fs.origin (p.join r) = .ok (start, way ++ Text.split '/' r) ∧
        way.foldlM fs.step start = .ok place ∧ (p.join r).text ≠ "" := by
  have hne := (exists_of_locate hp).1
  have hpath := isPath_of_locate hp
  obtain ⟨first, rest, hjoined, hpieces⟩ := exists_pieces_of_join hne hstart
  have hjoin : (p.join r).text ≠ "" := by
    intro hempty
    have hone : (Text.split '/' "").length = 1 := rfl
    have hpos : 0 < (Text.split '/' r).length := List.length_pos_of_ne_nil (Text.split_ne_nil r)
    rw [← hempty, hjoined, List.length_cons, List.length_append] at hone
    omega
  by_cases hfirst : first = ""
  · subst hfirst
    refine ⟨[], rest, ?_, ?_, hjoin⟩
    · rw [origin, isPath_join hpath hr, hjoined]
      rfl
    · rcases hpieces with hpieces | hpieces
      · rwa [locate_of_split hne hpath hpieces, if_pos rfl] at hp
      · rw [locate_of_split hne hpath hpieces, if_pos rfl] at hp
        exact foldlM_step_of_append rfl hp
  · refine ⟨fs.working, first :: rest, ?_, ?_, hjoin⟩
    · rw [origin, isPath_join hpath hr, hjoined]
      simp only [Bool.not_true, Bool.false_eq_true, if_false]
      split
      · rename_i heq
        cases heq
        exact absurd rfl hfirst
      · rfl
    · rcases hpieces with hpieces | hpieces
      · rwa [locate_of_split hne hpath hpieces, if_neg hfirst] at hp
      · rw [locate_of_split hne hpath hpieces, if_neg hfirst, ← List.cons_append] at hp
        exact foldlM_step_of_append rfl hp

/-- A path leads to a directory with a tree. -/
structure Seat (fs : Files) (p : Path) (place : List String) (t : FileTree) : Prop where
  locate : fs.locate p = .ok place
  tree : fs.tree.get? place = some t
  dir : t.look [] = some none

/-- A directory that a path leads to has a place. -/
theorem exists_seat {entries : List (String × FileTree)} (h : fs.get p = .ok (.dir entries)) :
    ∃ place, fs.Seat p place (.dir entries) := by
  obtain ⟨place, hlocate, hget⟩ := Except.bind_eq_ok_iff.mp h
  refine ⟨place, hlocate, ?_, rfl⟩
  split at hget
  · rename_i t ht
    cases hget
    exact ht
  · cases hget

namespace Seat

theorem look (h : fs.Seat p place t) (names : List String) :
    fs.tree.look (place ++ names) = t.look names :=
  FileTree.look_append h.tree names

theorem look_place (h : fs.Seat p place t) : fs.tree.look place = some none := by
  have := h.look []
  rwa [List.append_nil, h.dir] at this

theorem foldlM_step (h : fs.Seat p place t) (hnames : ∀ n ∈ names, fs.Admits n)
    (hopen : t.Open names) : names.foldlM fs.step place
      = if (t.look names).isSome then .ok (place ++ names) else .error .notFound := by
  rw [foldlM_step_entries hnames h.look_place fun above more heq hmore f => ?_, h.look]
  rw [h.look]
  exact hopen above more heq hmore f

theorem locate_join (h : fs.Seat p place t) (hnames : ∀ n ∈ names, fs.Admits n) (hne : names ≠ [])
    (hopen : t.Open names) : fs.locate (p.join ("/".intercalate names))
      = if (t.look names).isSome then .ok (place ++ names) else .error .notFound := by
  rw [Files.locate_join h.locate (isPath_intercalate hnames) (hasStart_intercalate hnames),
    Text.split_intercalate hne fun n hn => (hnames n hn).piece.1, h.foldlM_step hnames hopen]

theorem get_self (h : fs.Seat p place t) : fs.get p = .ok t := by
  rw [Files.get, h.locate]
  exact Except.bind_eq_ok_iff.mpr ⟨place, rfl, by rw [h.tree]; rfl⟩

/-- What a path leads to that goes on from the directory. -/
theorem get (h : fs.Seat p place t) (hnames : ∀ n ∈ names, fs.Admits n) (hne : names ≠ [])
    (hopen : t.Open names) : fs.get (p.join ("/".intercalate names))
      = (t.get? names).elim (.error .notFound) .ok := by
  rw [Files.get, h.locate_join hnames hne hopen, FileTree.look, Option.isSome_map]
  have hget : fs.tree.get? (place ++ names) = t.get? names := by
    rw [FileTree.get?_append, h.tree]
    rfl
  cases hu : t.get? names with
  | none => rfl
  | some u =>
    rw [hu] at hget
    rw [Option.isSome_some, if_pos rfl]
    exact Except.bind_eq_ok_iff.mpr ⟨_, rfl, by rw [hget]; rfl⟩

/-- What a name of the directory leads to. -/
theorem get_name (h : fs.Seat p place t) (hn : fs.Admits n) :
    fs.get (p.join n) = (t.get? [n]).elim (.error .notFound) .ok := by
  have hopen : t.Open [n] := by
    intro above more heq hmore f
    rcases List.singleton_eq_append_iff.mp heq with ⟨rfl, -⟩ | ⟨-, rfl⟩
    · simp [h.dir]
    · exact absurd rfl hmore
  have hget := h.get (List.forall_mem_singleton.mpr hn) (by simp) hopen
  rwa [String.intercalate_singleton] at hget

/-- The text of a file of the directory. -/
theorem readText (h : fs.Seat p place t) (hn : fs.Admits n) {s : String}
    (hfile : t.look [n] = some (some (.text s))) : fs.readText (p.join n) = .ok s := by
  rw [Files.readText, h.get_name hn, FileTree.look_eq_file_iff.mp hfile]
  rfl

theorem isFile_eq (h : fs.Seat p place t) (hn : fs.Admits n) (hflat : t.look [n] ≠ some none) :
    fs.isFile (p.join n) = (t.look [n]).isSome := by
  rw [Files.isFile, h.get_name hn]
  cases hlook : t.look [n] with
  | none =>
    rw [FileTree.look_eq_none_iff.mp hlook]
    rfl
  | some k =>
    cases k with
    | none => exact absurd hlook hflat
    | some f =>
      rw [FileTree.look_eq_file_iff.mp hlook]
      rfl

/-! ### Changes below the directory -/

/-- What is put where there was no directory leaves all directories where they are. -/
theorem put (h : fs.Seat p place t) (hdir : t.look above = some none)
    (hn : t.look (above ++ [n]) ≠ some none) (hnew : ∀ more, more ≠ [] → u.look more = none) :
    Seat { fs with tree := fs.tree.put (place ++ (above ++ [n])) u } p place
      (t.put (above ++ [n]) u) := by
  have hn' : fs.tree.look (place ++ above ++ [n]) ≠ some none := by rwa [List.append_assoc, h.look]
  have hkeeps : fs.KeepsDirs { fs with tree := fs.tree.put (place ++ (above ++ [n])) u } := by
    refine ⟨fun names hnames => ?_, rfl, rfl⟩
    rw [← List.append_assoc, FileTree.look_put ((h.look above).trans hdir) hn' hnew, if_neg, hnames]
    rintro rfl
    exact hn' hnames
  refine ⟨hkeeps.locate h.locate h.look_place, FileTree.get?_put_append h.tree .., ?_⟩
  rw [FileTree.look_put hdir hn hnew, if_neg (by simp), h.dir]

/-- When a file is removed, all directories stay where they are. -/
theorem remove (h : fs.Seat p place t) (hdir : t.look above = some none)
    (hn : t.look (above ++ [n]) ≠ some none) :
    Seat { fs with tree := fs.tree.remove (place ++ (above ++ [n])) } p place
      (t.remove (above ++ [n])) := by
  have hn' : fs.tree.look (place ++ above ++ [n]) ≠ some none := by rwa [List.append_assoc, h.look]
  have hkeeps : fs.KeepsDirs { fs with tree := fs.tree.remove (place ++ (above ++ [n])) } := by
    refine ⟨fun names hnames => ?_, rfl, rfl⟩
    rw [← List.append_assoc, FileTree.look_remove ((h.look above).trans hdir) hn', if_neg, hnames]
    rintro rfl
    exact hn' hnames
  refine ⟨hkeeps.locate h.locate h.look_place, FileTree.get?_remove_append h.tree (by simp), ?_⟩
  rw [FileTree.look_remove hdir hn, if_neg (by simp), h.dir]

/-! ### Writing and removing files -/

/-- A file is written at its place, if its directory is there. -/
theorem write (h : fs.Seat p place t) (hnames : ∀ m ∈ above ++ [n], fs.Admits m)
    (hdir : t.look above = some none) (hn : t.look (above ++ [n]) ≠ some none) (c : FileContent) :
    fs.write (p.join ("/".intercalate (above ++ [n]))) c
      = .ok { fs with tree := fs.tree.put (place ++ (above ++ [n])) (.file c) } := by
  obtain ⟨start, way, horigin, hway, hne⟩ :=
    exists_origin_join h.locate (isPath_intercalate hnames) (hasStart_intercalate hnames)
  rw [Text.split_intercalate (by simp) fun m hm => (hnames m hm).piece.1, ← List.append_assoc]
    at horigin
  have habove : (way ++ above).foldlM fs.step start = .ok (place ++ above) := by
    rw [List.foldlM_append, hway]
    refine (h.foldlM_step (fun m hm => hnames m (List.mem_append_left _ hm)) ?_).trans ?_
    · exact FileTree.open_of_look (by rw [hdir]; simp)
    · rw [hdir]
      rfl
  have hstep := step_entry ((h.look above).trans hdir) (hnames n List.mem_concat_self)
  rw [List.append_assoc, h.look] at hstep
  have hempty : (p.join ("/".intercalate (above ++ [n]))).text.isEmpty = false := by simpa using hne
  rw [Files.write, hempty, horigin]
  simp only [Bool.false_eq_true, if_false]
  refine Except.bind_eq_ok_iff.mpr ⟨(start, way ++ above ++ [n]), rfl, ?_⟩
  dsimp only
  rw [List.dropLast_concat, List.getLast?_concat, Option.getD_some]
  refine Except.bind_eq_ok_iff.mpr ⟨place ++ above, habove, ?_⟩
  rw [hstep]
  cases hk : t.look (above ++ [n]) with
  | none =>
    simp only [Option.isSome_none, Bool.false_eq_true, if_false, List.append_assoc]
    rfl
  | some k =>
    cases k with
    | none => exact absurd hk hn
    | some f =>
      have hfile := FileTree.look_eq_file_iff.mp ((h.look (above ++ [n])).trans hk)
      simp only [Option.isSome_some, if_true, hfile]
      rfl

/-- A text is written where there is no directory. -/
theorem exists_writeText (h : fs.Seat p place t) (hn : fs.Admits n)
    (hflat : t.look [n] ≠ some none) (s : String) :
    ∃ fs' t', fs.writeText (p.join n) s = .ok fs' ∧ fs'.Seat p place t' ∧
      fs'.nameLimit = fs.nameLimit ∧
      ∀ m, t'.look [m] = if m = n then some (some (.text s)) else t.look [m] := by
  have hnames : ∀ m ∈ [] ++ [n], fs.Admits m := List.forall_mem_singleton.mpr hn
  have hnew : ∀ more, more ≠ [] → (FileTree.file (.text s)).look more = none :=
    fun more => FileTree.look_file _
  have hwrite := h.write hnames h.dir hflat (.text s)
  rw [List.nil_append, String.intercalate_singleton] at hwrite
  refine ⟨_, _, hwrite, h.put h.dir hflat hnew, rfl, fun m => ?_⟩
  rw [FileTree.look_put h.dir hflat hnew]
  simp [FileTree.content?]

/-- A file is removed from its place, and what is not there is not found. -/
theorem removeFile (h : fs.Seat p place t) (hnames : ∀ m ∈ names, fs.Admits m) (hne : names ≠ [])
    (hopen : t.Open names) (hn : t.look names ≠ some none) :
    fs.removeFile (p.join ("/".intercalate names)) = if (t.look names).isSome
      then .ok { fs with tree := fs.tree.remove (place ++ names) } else .error .notFound := by
  rw [Files.removeFile, h.locate_join hnames hne hopen]
  cases hk : t.look names with
  | none => rfl
  | some k =>
    cases k with
    | none => exact absurd hk hn
    | some f =>
      have hfile := FileTree.look_eq_file_iff.mp ((h.look names).trans hk)
      simp only [Option.isSome_some, if_true]
      exact Except.bind_eq_ok_iff.mpr ⟨_, rfl, by rw [hfile]; rfl⟩

end Seat

/-! ### Files that are there -/

theorem exists_of_isFile (h : fs.isFile p = true) :
    ∃ names c, fs.locate p = .ok names ∧ fs.tree.get? names = some (.file c) := by
  rw [isFile] at h
  cases hget : fs.get p with
  | error e =>
    rw [hget] at h
    cases h
  | ok t =>
    rw [hget] at h
    cases t with
    | dir entries => cases h
    | file c =>
      rw [get] at hget
      obtain ⟨names, hnames, hget⟩ := Except.bind_eq_ok_iff.mp hget
      refine ⟨names, c, hnames, ?_⟩
      split at hget
      · rename_i t ht
        cases hget
        exact ht
      · cases hget

/-- A path has pieces. -/
theorem pieces_ne_nil {start pieces : List String} (hp : p.text ≠ "")
    (h : fs.origin p = .ok (start, pieces)) : pieces ≠ [] := by
  rintro rfl
  rcases origin_cases hp h with ⟨-, -, hsplit⟩ | ⟨-, -, hsplit⟩
  · exact hp (Text.eq_empty_of_split hsplit)
  · exact Text.split_ne_nil _ hsplit

/-- A file that is there can be written. -/
theorem exists_writeText_of_isFile (h : fs.isFile p = true) (s : String) :
    ∃ fs', fs.writeText p s = .ok fs' := by
  obtain ⟨names, c, hlocate, hfile⟩ := exists_of_isFile h
  obtain ⟨hne, start, pieces, horigin, hfold⟩ := exists_of_locate hlocate
  obtain ⟨above, last, rfl⟩ :=
    (List.eq_nil_or_concat' pieces).resolve_left (pieces_ne_nil hne horigin)
  rw [List.foldlM_append] at hfold
  obtain ⟨place, hplace, hstep⟩ := Except.bind_eq_ok_iff.mp hfold
  have hstep : fs.step place last = .ok names := by simpa using hstep
  have hempty : p.text.isEmpty = false := by simpa using hne
  refine ⟨{ fs with tree := fs.tree.put names (.file (.text s)) }, ?_⟩
  rw [writeText, write, hempty, horigin]
  simp only [Bool.false_eq_true, if_false]
  refine Except.bind_eq_ok_iff.mpr ⟨(start, above ++ [last]), rfl, ?_⟩
  dsimp only
  rw [List.dropLast_concat, List.getLast?_concat, Option.getD_some]
  refine Except.bind_eq_ok_iff.mpr ⟨place, hplace, ?_⟩
  rw [hstep]
  simp only [hfile]
  rfl

end Files

end Cookbook
