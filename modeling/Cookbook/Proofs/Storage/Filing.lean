import Cookbook.Proofs.Storage.Directory

/-!
# Changing the objects of a directory

A change of one object is a change of one file: the file is written, with the directories on the way
to it, or it is removed. The snapshot that the directory is stated against changes as one in memory
does, except that an object is what is read from its file again and not what was written, and that
nothing is changed where an object has no text.

## Main results

* `Storage.Stores.put`, `Storage.Stores.remove`: one file more or less in the tree.
* `Storage.Shelves.exists_write`, `Storage.Shelves.removeFile_cases`: the same by the file's path.
* `Storage.Mirrors.exists_writeFile`, `Storage.Mirrors.exists_deleteFile`: changes of a directory.
-/

namespace Cookbook

namespace Storage

variable {fs : Files} {dir : Path} {place names : List String} {t t' : FileTree} {d : Snapshot}
  {c name text : String} {o p : ConfigObject}

/-! ### The tree -/

namespace Shelves

/-- Directories of collections may be made. -/
theorem made (h : Shelves t) (hnames : ∀ n ∈ names, IsSegment n) (hmade : t.Made names t') :
    Shelves t' where
  ordered := hmade.ordered h.ordered
  dirs place hdir := by
    rw [hmade.look] at hdir
    split at hdir
    · rename_i hway
      exact fun n hn => hnames n (hway.subset hn)
    · exact h.dirs place hdir
  files place f hfile := by
    rw [hmade.look] at hfile
    split at hfile
    · cases hfile
    · exact h.files place f hfile

theorem look_put (h : Shelves t) (hdir : t.look (segments c) = some none) (f : FileContent)
    (place : List String) : (t.put (entry c name) (.file f)).look place
      = if place = entry c name then some (some f) else t.look place :=
  FileTree.look_put hdir h.look_entry_ne (fun _ => FileTree.look_file f) place

/-- One file is written. -/
theorem put (h : Shelves t) (hc : IsCollectionName c) (hname : IsObjectName name)
    (hdir : t.look (segments c) = some none) (f : FileContent) :
    Shelves (t.put (entry c name) (.file f)) where
  ordered := FileTree.ordered_put h.ordered (FileTree.ordered_file _) _
  dirs place hplace := by
    rw [h.look_put hdir] at hplace
    split at hplace
    · cases hplace
    · exact h.dirs place hplace
  files place f' hfile := by
    rw [h.look_put hdir] at hfile
    split at hfile
    · exact ⟨c, name, hc, hname, ‹_›⟩
    · exact h.files place f' hfile

theorem look_remove (h : Shelves t) (hdir : t.look (segments c) = some none)
    (place : List String) : (t.remove (entry c name)).look place
      = if place = entry c name then none else t.look place :=
  FileTree.look_remove hdir h.look_entry_ne place

/-- One file is removed. -/
theorem remove (h : Shelves t) (hdir : t.look (segments c) = some none) :
    Shelves (t.remove (entry c name)) where
  ordered := FileTree.ordered_remove h.ordered _
  dirs place hplace := by
    rw [h.look_remove hdir] at hplace
    split at hplace
    · cases hplace
    · exact h.dirs place hplace
  files place f hfile := by
    rw [h.look_remove hdir] at hfile
    split at hfile
    · cases hfile
    · exact h.files place f hfile

end Shelves

namespace Stores

/-- Directories of collections may be made. -/
theorem made (h : Stores t d) (hnames : ∀ n ∈ names, IsSegment n) (hmade : t.Made names t') :
    Stores t' d where
  toShelves := h.toShelves.made hnames hmade
  objects c name hc hname := by
    rw [hmade.look, if_neg]
    · exact h.objects c name hc hname
    · intro hway
      obtain ⟨n, hn, hno⟩ := exists_not_isSegment c name
      exact hno (hnames n (hway.subset hn))
  named := h.named

/-- One file is written. -/
theorem put (h : Stores t d) (hc : IsCollectionName c) (hname : IsObjectName name)
    (hdir : t.look (segments c) = some none) (hp : ConfigObject.decode text = .ok p) :
    Stores (t.put (entry c name) (.file (.text text))) (putObject d c name p) where
  toShelves := h.toShelves.put hc hname hdir _
  objects c' name' hc' hname' := by
    rw [h.look_put hdir, Snapshot.object?_putObject]
    by_cases heq : c = c' ∧ name = name'
    · obtain ⟨rfl, rfl⟩ := heq
      rw [if_pos rfl, if_pos ⟨rfl, rfl⟩]
      exact .some ⟨text, rfl, hp⟩
    · rw [if_neg heq, if_neg fun hentry => heq ((entry_inj hentry).imp Eq.symm Eq.symm)]
      exact h.objects c' name' hc' hname'
  named c' name' q hq := by
    rw [Snapshot.object?_putObject] at hq
    split at hq
    · rename_i heq
      obtain ⟨rfl, rfl⟩ := heq
      exact ⟨hc, hname⟩
    · exact h.named c' name' q hq

/-- One file is removed. -/
theorem remove (h : Stores t d) (hdir : t.look (segments c) = some none) :
    Stores (t.remove (entry c name)) (dropObject d c name) where
  toShelves := h.toShelves.remove hdir
  objects c' name' hc' hname' := by
    rw [h.look_remove hdir, Snapshot.object?_dropObject]
    by_cases heq : c = c' ∧ name = name'
    · obtain ⟨rfl, rfl⟩ := heq
      rw [if_pos rfl, if_pos ⟨rfl, rfl⟩]
      exact .none
    · rw [if_neg heq, if_neg fun hentry => heq ((entry_inj hentry).imp Eq.symm Eq.symm)]
      exact h.objects c' name' hc' hname'
  named c' name' q hq := by
    rw [Snapshot.object?_dropObject] at hq
    split at hq
    · cases hq
    · exact h.named c' name' q hq

end Stores

/-! ### The directory -/

section Files

variable {path : Path} {fs' fs'' : Files}

theorem writeFile_eq_error (hcreate : fs.createDirectories (path.parent?.getD ⟨""⟩) = .ok fs')
    {e : Error} (ho : ConfigObject.encode o = .error e) : writeFile fs path o = (.error e, fs') := by
  unfold writeFile
  rw [hcreate]
  dsimp only
  rw [ho]

theorem writeFile_eq_ok (hcreate : fs.createDirectories (path.parent?.getD ⟨""⟩) = .ok fs')
    (ho : ConfigObject.encode o = .ok text) (hwrite : fs'.write path (.text text) = .ok fs'') :
    writeFile fs path o = (.ok (), fs'') := by
  unfold writeFile
  rw [hcreate]
  dsimp only
  rw [ho]
  dsimp only
  rw [Files.writeText, hwrite]

end Files

namespace Shelves

/-- The directory of an object is made before it is written. -/
theorem exists_createDirectories (h : Shelves t) (hlimit : fs.nameLimit = none)
    (hseat : fs.Seat dir place t) (hc : IsCollectionName c) (hname : IsObjectName name) :
    ∃ fs' t', fs.createDirectories ((filePath dir c name).parent?.getD ⟨""⟩) = .ok fs' ∧
      fs'.nameLimit = none ∧ fs'.Seat dir place t' ∧ t.Made (segments c) t' := by
  obtain ⟨q, fs', t', hparent, hcreate, hseat', hlimit', hmade⟩ :=
    hseat.exists_createParent (admits_entry hlimit hc hname) (h.open_concat (isSegment_of_mem hc) _)
  refine ⟨fs', t', ?_, hlimit'.trans hlimit, hseat', hmade⟩
  rw [filePath_eq (Files.exists_of_locate hseat.locate).1 hc hname, entry, hparent]
  exact hcreate

/-- The file of an object is written in its directory. -/
theorem exists_write (h : Shelves t) (hlimit : fs.nameLimit = none) (hseat : fs.Seat dir place t)
    (hc : IsCollectionName c) (hname : IsObjectName name) (hdir : t.look (segments c) = some none)
    (f : FileContent) : ∃ fs', fs.write (filePath dir c name) f = .ok fs' ∧
      fs'.nameLimit = none ∧ fs'.Seat dir place (t.put (entry c name) (.file f)) := by
  have hwrite := hseat.write (admits_entry hlimit hc hname) hdir h.look_entry_ne f
  rw [← entry, ← filePath_eq (Files.exists_of_locate hseat.locate).1 hc hname] at hwrite
  exact ⟨_, hwrite, hlimit, hseat.put hdir h.look_entry_ne fun _ => FileTree.look_file _⟩

/-- The file of an object is removed if it is there. -/
theorem removeFile_cases (h : Shelves t) (hlimit : fs.nameLimit = none)
    (hseat : fs.Seat dir place t) (hc : IsCollectionName c) (hname : IsObjectName name) :
    (fs.removeFile (filePath dir c name) = .error .notFound ∧ t.look (entry c name) = none) ∨
    ∃ fs' f, fs.removeFile (filePath dir c name) = .ok fs' ∧ t.look (entry c name) = some (some f) ∧
      t.look (segments c) = some none ∧ fs'.nameLimit = none ∧
      fs'.Seat dir place (t.remove (entry c name)) := by
  have hremove := hseat.removeFile (admits_entry hlimit hc hname) (by simp [entry])
    (h.open_concat (isSegment_of_mem hc) _) h.look_entry_ne
  rw [← filePath_eq (Files.exists_of_locate hseat.locate).1 hc hname] at hremove
  cases hk : t.look (entry c name) with
  | none =>
    rw [hk] at hremove
    exact .inl ⟨hremove, rfl⟩
  | some k =>
    cases k with
    | none => exact absurd hk h.look_entry_ne
    | some f =>
      have hdir : t.look (segments c) = some none :=
        FileTree.look_above (by rw [← entry, hk]; exact Option.some_ne_none _) (by simp)
      rw [hk] at hremove
      exact .inr ⟨_, f, hremove, rfl, hdir, hlimit, hseat.remove hdir h.look_entry_ne⟩

end Shelves

namespace Mirrors

/-- An object that has no text is not written. -/
theorem exists_writeFile_error (h : Mirrors fs dir d) (hc : IsCollectionName c)
    (hname : IsObjectName name) {e : Error} (he : ConfigObject.encode o = .error e) :
    ∃ fs', writeFile fs (filePath dir c name) o = (.error e, fs') ∧ Mirrors fs' dir d := by
  obtain ⟨place, t, hseat, hstores⟩ := h.tree
  obtain ⟨fs', t', hcreate, hlimit, hseat', hmade⟩ :=
    hstores.exists_createDirectories h.nameLimit hseat hc hname
  exact ⟨fs', writeFile_eq_error hcreate he, hlimit, place, t', hseat',
    hstores.made (isSegment_of_mem hc) hmade⟩

/-- The object that is there then is what its text is read as. -/
theorem exists_writeFile (h : Mirrors fs dir d) (hc : IsCollectionName c) (hname : IsObjectName name)
    (ho : ConfigObject.encode o = .ok text) (hp : ConfigObject.decode text = .ok p) :
    ∃ fs', writeFile fs (filePath dir c name) o = (.ok (), fs') ∧
      Mirrors fs' dir (putObject d c name p) := by
  obtain ⟨place, t, hseat, hstores⟩ := h.tree
  obtain ⟨fs', t', hcreate, hlimit, hseat', hmade⟩ :=
    hstores.exists_createDirectories h.nameLimit hseat hc hname
  have hmade' := hstores.made (isSegment_of_mem hc) hmade
  obtain ⟨fs'', hwrite, hlimit', hseat''⟩ :=
    hmade'.exists_write hlimit hseat' hc hname hmade.look_self (.text text)
  exact ⟨fs'', writeFile_eq_ok hcreate ho hwrite, hlimit', place, _, hseat'',
    hmade'.put hc hname hmade.look_self hp⟩

/-- An object is deleted if it is there. -/
theorem exists_deleteFile (h : Mirrors fs dir d) (hc : IsCollectionName c)
    (hname : IsObjectName name) :
    ∃ fs', deleteFile fs (filePath dir c name) = (.ok (d.object? c name).isSome, fs') ∧
      Mirrors fs' dir (dropObject d c name) := by
  obtain ⟨place, t, hseat, hstores⟩ := h.tree
  have hsome := (Option.rel_iff.mp (hstores.objects c name hc hname)).1
  rcases hstores.removeFile_cases h.nameLimit hseat hc hname with
    ⟨hremove, hnone⟩ | ⟨fs', f, hremove, hfile, hdir, hlimit, hseat'⟩
  · rw [hnone] at hsome
    have hobject : d.object? c name = none := by simpa using hsome.symm
    refine ⟨fs, by rw [deleteFile, hremove, ← hsome]; rfl, h.nameLimit, place, t, hseat,
      hstores.congr fun c' name' => ?_⟩
    rw [Snapshot.object?_dropObject]
    split
    · rename_i heq
      obtain ⟨rfl, rfl⟩ := heq
      exact hobject.symm
    · rfl
  · rw [hfile] at hsome
    exact ⟨fs', by rw [deleteFile, hremove, ← hsome]; rfl, hlimit, place, _, hseat',
      hstores.remove hdir⟩

end Mirrors

end Storage

end Cookbook
