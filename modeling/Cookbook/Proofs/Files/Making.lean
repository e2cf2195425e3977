import Cookbook.Proofs.Files.Below

/-!
# Making the directory of a file

The directory of a file is made before the file is written. The path to it is that of the file
without its last step, and without whatever is no step in front of that. It is followed from its
start, and a directory is made wherever there is nothing.

In a directory that is there already nothing is made on the way to it. So this changes what is below
alone: all places on the way to the file are directories then, and nothing else is different.

## Main definitions

* `FileTree.Made`: a tree in which the directories on the way to a place were made.

## Main results

* `Files.Seat.createDirectories_eq`: a directory that is there is not made again.
* `Files.Seat.exists_createParent`: making the directory of a file.
-/

namespace Cookbook

namespace FileTree

variable {t t' t'' : FileTree} {place names more : List String}

/-- A tree has become another one when the directories on the way to a place were made. -/
structure Made (t : FileTree) (place : List String) (t' : FileTree) : Prop where
  look : ∀ names, t'.look names = if names <+: place then some none else t.look names
  ordered : t.Ordered → t'.Ordered

theorem look_dir_above (hdir : t.look place = some none) (hnames : names <+: place) :
    t.look names = some none := by
  obtain ⟨rest, rfl⟩ := hnames
  by_cases hrest : rest = []
  · rwa [hrest, List.append_nil] at hdir
  · exact look_above (by rw [hdir]; simp) hrest

namespace Made

/-- On the way to a directory nothing has to be made. -/
theorem self (hdir : t.look place = some none) : t.Made place t where
  look names := by
    split
    · exact look_dir_above hdir ‹_›
    · rfl
  ordered := id

theorem look_self (h : t.Made place t') : t'.look place = some none := by
  rw [h.look, if_pos (List.prefix_refl place)]

/-- Directories are in nobody's way. -/
theorem open_of_open (h : t.Made place t') (hopen : t.Open names) : t'.Open names := by
  intro above more heq hmore f
  rw [h.look]
  split
  · simp
  · exact hopen above more heq hmore f

theorem trans (h : t.Made place t') (h' : t'.Made (place ++ more) t'') :
    t.Made (place ++ more) t'' where
  look names := by
    rw [h'.look]
    split
    · rfl
    · rename_i hnames
      rw [h.look, if_neg fun hplace => hnames (hplace.trans (List.prefix_append ..))]
  ordered ht := h'.ordered (h.ordered ht)

end Made

end FileTree

namespace Files

variable {fs : Files} {p : Path} {place here names above pieces : List String} {n piece : String}
  {t : FileTree}

/-! ### Making what is not there -/

/-- Where all steps lead on, nothing is made. -/
theorem foldlM_enter_of_step (h : pieces.foldlM fs.step here = .ok names) :
    pieces.foldlM enter (fs, here) = .ok (fs, names) := by
  induction pieces generalizing here with
  | nil =>
    cases h
    rfl
  | cons piece pieces ih =>
    rw [List.foldlM_cons] at h ⊢
    obtain ⟨next, hnext, h⟩ := Except.bind_eq_ok_iff.mp h
    exact Except.bind_eq_ok_iff.mpr ⟨(fs, next), by rw [enter, hnext], ih h⟩

namespace Seat

/-- To make a directory that is there changes nothing. -/
theorem createDirectories_eq (h : fs.Seat p place t) : fs.createDirectories p = .ok fs := by
  obtain ⟨hne, start, pieces, horigin, hfold⟩ := exists_of_locate h.locate
  obtain ⟨entries, hdir⟩ := FileTree.look_eq_dir_iff.mp h.look_place
  rw [createDirectories, horigin]
  have hempty : p.text.isEmpty = false := by simpa using hne
  simp only [hempty, Bool.false_eq_true, if_false]
  refine Except.bind_eq_ok_iff.mpr ⟨_, rfl, ?_⟩
  refine Except.bind_eq_ok_iff.mpr ⟨_, foldlM_enter_of_step hfold, ?_⟩
  rw [hdir]
  rfl

/-- One name on from a directory; if there is nothing, a directory is made. -/
theorem exists_enter (h : fs.Seat p place t) (hn : fs.Admits n) (hdir : t.look above = some none)
    (hfree : ∀ f, t.look (above ++ [n]) ≠ some (some f)) :
    ∃ fs' t', enter (fs, place ++ above) n = .ok (fs', place ++ (above ++ [n])) ∧
      fs'.Seat p place t' ∧ fs'.nameLimit = fs.nameLimit ∧ t.Made (above ++ [n]) t' := by
  have hstep := step_entry ((h.look above).trans hdir) hn
  rw [List.append_assoc, h.look] at hstep
  cases hk : t.look (above ++ [n]) with
  | some k =>
    have hthere : t.look (above ++ [n]) = some none := by
      cases k with
      | none => exact hk
      | some f => exact absurd hk (hfree f)
    rw [hk] at hstep
    exact ⟨fs, t, by rw [enter, hstep]; rfl, h, rfl, .self hthere⟩
  | none =>
    have hnew : ∀ more, more ≠ [] → (FileTree.dir []).look more = none := fun _ =>
      FileTree.look_empty
    have hnone : t.look (above ++ [n]) ≠ some none := by rw [hk]; simp
    rw [hk] at hstep
    refine ⟨_, _, ?_, h.put hdir hnone hnew, rfl, fun names => ?_, fun ht => ?_⟩
    · rw [enter, hstep, ← List.append_assoc]
      rfl
    · rw [FileTree.look_put hdir hnone hnew]
      by_cases heq : names = above ++ [n]
      · rw [if_pos heq, if_pos (heq ▸ List.prefix_refl _)]
        rfl
      · rw [if_neg heq]
        split
        · rename_i hway
          exact FileTree.look_dir_above hdir ((List.prefix_concat_iff.mp hway).resolve_left heq)
        · rfl
    · exact FileTree.ordered_put ht FileTree.ordered_empty _

/-- Names are gone through from a directory; directories are made where there is nothing. -/
theorem exists_foldlM_enter (h : fs.Seat p place t) (hnames : ∀ m ∈ names, fs.Admits m)
    (hdir : t.look above = some none) (hopen : t.Open (above ++ names ++ [n])) :
    ∃ fs' t', names.foldlM enter (fs, place ++ above) = .ok (fs', place ++ (above ++ names)) ∧
      fs'.Seat p place t' ∧ fs'.nameLimit = fs.nameLimit ∧ t.Made (above ++ names) t' := by
  induction names generalizing fs t above with
  | nil =>
    rw [List.append_nil]
    exact ⟨fs, t, rfl, h, rfl, .self hdir⟩
  | cons m names ih =>
    obtain ⟨hm, hnames⟩ := List.forall_mem_cons.mp hnames
    have happend : above ++ m :: names = above ++ [m] ++ names := by simp
    rw [happend] at hopen ⊢
    obtain ⟨fs₁, t₁, henter, hseat, hlimit, hmade⟩ := h.exists_enter hm hdir
      (hopen (above ++ [m]) (names ++ [n]) (by simp) (by simp))
    obtain ⟨fs₂, t₂, hfold, hseat', hlimit', hmade'⟩ := ih hseat
      (fun m' hm' => (hnames m' hm').of_nameLimit hlimit) hmade.look_self (hmade.open_of_open hopen)
    refine ⟨fs₂, t₂, ?_, hseat', hlimit'.trans hlimit, hmade.trans hmade'⟩
    rw [List.foldlM_cons]
    exact Except.bind_eq_ok_iff.mpr ⟨_, henter, hfold⟩

/-- The path to the directory of a file goes on from the same directory. -/
theorem exists_parent (h : fs.Seat p place t) (hnames : ∀ m ∈ names ++ [n], fs.Admits m) :
    ∃ q start way, (p.join ("/".intercalate (names ++ [n]))).parent? = some q ∧ q.text ≠ "" ∧
      fs.origin q = .ok (start, way ++ names) ∧ way.foldlM fs.step start = .ok place := by
  have hn := hnames n List.mem_concat_self
  obtain ⟨a, htext, habove⟩ := Path.exists_text_join (p := p) (exists_of_locate h.locate).1
    (hasStart_intercalate hnames)
  have hparent := parent?_append a hn.piece.1 hn.entry
  rw [← htext] at hparent
  rcases List.eq_nil_or_concat names with rfl | ⟨above, m, rfl⟩
  · rw [if_pos rfl] at habove
    -- the path of the directory itself, with a separator behind it, without what ends it
    have hlocate : fs.locate (p.join "") = .ok place := by
      obtain ⟨entries, hget⟩ := FileTree.look_eq_dir_iff.mp h.look_place
      rw [Files.locate_join h.locate rfl rfl]
      exact Except.bind_eq_ok_iff.mpr ⟨place, step_empty hget, rfl⟩
    have hends : String.ofList ('/' :: a.toList.reverse).reverse = (p.join "").text := by
      rw [habove]
      exact String.toList_inj.mp (by simp)
    have htrimmed := locate_trimEnd ('/' :: a.toList.reverse) (by rw [hends]; exact hlocate)
    obtain ⟨hne, start, pieces, horigin, hfold⟩ := exists_of_locate htrimmed
    exact ⟨_, start, pieces, hparent, hne, by rwa [List.append_nil], hfold⟩
  · rw [List.concat_eq_append] at *
    rw [if_neg (by simp)] at habove
    have hinit : ∀ k ∈ above ++ [m], fs.Admits k := fun k hk => hnames k (List.mem_append_left _ hk)
    have hm := hinit m List.mem_concat_self
    obtain ⟨b, htext', -⟩ := Path.exists_text_join (p := p) (exists_of_locate h.locate).1
      (hasStart_intercalate hinit)
    obtain ⟨start, way, horigin, hway, hne⟩ :=
      exists_origin_join h.locate (isPath_intercalate hinit) (hasStart_intercalate hinit)
    rw [Text.split_intercalate (by simp) fun k hk => (hinit k hk).piece.1] at horigin
    have hends : Path.trimEnd ('/' :: a.toList.reverse) = a.toList.reverse := by
      rw [← habove, htext', Path.trimEnd, if_neg (by simp), reverse_toList_append,
        trimEnd_of_entry hm.piece.1 hm.entry]
    rw [hends, List.reverse_reverse, String.ofList_toList, ← habove] at hparent
    exact ⟨_, start, way, hparent, hne, horigin, hway⟩

/-- The directory of a file is made, and all those on the way to it. -/
theorem exists_createParent (h : fs.Seat p place t) (hnames : ∀ m ∈ names ++ [n], fs.Admits m)
    (hopen : t.Open (names ++ [n])) :
    ∃ q fs' t', (p.join ("/".intercalate (names ++ [n]))).parent? = some q ∧
      fs.createDirectories q = .ok fs' ∧ fs'.Seat p place t' ∧ fs'.nameLimit = fs.nameLimit ∧
      t.Made names t' := by
  obtain ⟨q, start, way, hparent, hne, horigin, hway⟩ := h.exists_parent hnames
  obtain ⟨fs', t', hfold, hseat, hlimit, hmade⟩ := h.exists_foldlM_enter
    (fun m hm => hnames m (List.mem_append_left _ hm)) h.dir hopen
  refine ⟨q, fs', t', hparent, ?_, hseat, hlimit, hmade⟩
  rw [List.append_nil, List.nil_append] at hfold
  obtain ⟨entries, hget⟩ := FileTree.look_eq_dir_iff.mp ((hseat.look names).trans hmade.look_self)
  have hempty : q.text.isEmpty = false := by simpa using hne
  rw [createDirectories, horigin]
  refine Except.bind_eq_ok_iff.mpr ⟨_, rfl, ?_⟩
  dsimp only
  rw [hempty, if_neg Bool.false_ne_true, List.foldlM_append, foldlM_enter_of_step hway]
  exact Except.bind_eq_ok_iff.mpr ⟨_, hfold, by dsimp only; rw [hget]; rfl⟩

end Seat

end Files

end Cookbook
