import Cookbook.Files
import Cookbook.Proofs.Except
import Cookbook.Proofs.NameMap

/-!
# Where paths lead

Following a path checks at each step that there is something. What it arrives at, if it arrives, does
not depend on the files at all: it is what the steps of the path say. So two paths with the same
steps never lead to different places.

A path that leads to something in a directory leads through the directory, and every directory is
listed by `FileTree.walk`, the top apart. That bounds the number of places at which there can be a
file of a given name.

## Main definitions

* `Path.Component.move`: one step from a place.
* `Files.directories`: the places of all directories.

## Main results

* `Files.eq_of_same`: paths with the same steps lead to the same place.
* `Files.locate_of_join`, `Files.locate_join`: paths that go on from others.
* `Files.eq_of_locate_join`: paths that go on with a name.
* `Files.fileName?_absolute`: the name of a place.
* `Files.mem_directories`: every directory is listed.
-/

namespace Cookbook

namespace Text

theorem splitPieces_append (sep : Char) (cs ds : List Char) :
    splitPieces sep (cs ++ sep :: ds) = splitPieces sep cs ++ splitPieces sep ds := by
  induction cs with
  | nil => simp [splitPieces]
  | cons c cs ih =>
    rw [List.cons_append, splitPieces, splitPieces]
    split
    · rw [ih]
      rfl
    · rw [ih]
      cases h : splitPieces sep cs with
      | nil => exact absurd h (splitPieces_ne_nil sep cs)
      | cons piece pieces => rfl

theorem split_ne_nil (s : String) : split '/' s ≠ [] := by simp [split, splitPieces_ne_nil]

/-- Around a separator a text falls apart. -/
theorem split_append (s t : String) : split '/' (s ++ "/" ++ t) = split '/' s ++ split '/' t := by
  have hchars : (s ++ "/" ++ t).toList = s.toList ++ '/' :: t.toList := by simp
  rw [split, hchars, splitPieces_append, List.map_append]
  rfl

/-- The first piece of a text is empty just if the text starts with a separator. -/
theorem split_cases {s : String} (h : s ≠ "") :
    (hasStart "/" s = true ∧ ∃ rest, split '/' s = "" :: rest) ∨
      (hasStart "/" s = false ∧ ∃ first rest, split '/' s = first :: rest ∧ first ≠ "") := by
  have hslash : "/".toList = ['/'] := rfl
  rw [hasStart, split, hslash]
  cases hs : s.toList with
  | nil => exact absurd (String.toList_eq_nil_iff.mp hs) h
  | cons c cs =>
    by_cases hc : c = '/'
    · refine .inl ⟨by simp [dropStart?, hc], (splitPieces '/' cs).map String.ofList, ?_⟩
      simp [splitPieces, hc]
    · refine .inr ⟨by simp [dropStart?, Ne.symm hc], ?_⟩
      rw [splitPieces, if_neg hc]
      cases hcs : splitPieces '/' cs with
      | nil => exact absurd hcs (splitPieces_ne_nil '/' cs)
      | cons piece pieces =>
        refine ⟨String.ofList (c :: piece), pieces.map String.ofList, rfl, fun hempty => ?_⟩
        have := congrArg String.toList hempty
        simp at this

theorem splitPieces_eq_singleton {sep : Char} {cs : List Char} (h : sep ∉ cs) :
    splitPieces sep cs = [cs] := by
  induction cs with
  | nil => rfl
  | cons c cs ih =>
    rw [List.mem_cons, not_or] at h
    rw [splitPieces, if_neg (Ne.symm h.1), ih h.2]

/-- A text without a separator is a single piece. -/
theorem split_eq_singleton {s : String} (h : '/' ∉ s.toList) : split '/' s = [s] := by
  rw [split, splitPieces_eq_singleton h, List.map_singleton, String.ofList_toList]

theorem not_mem_of_mem_splitPieces {sep : Char} {cs piece : List Char}
    (h : piece ∈ splitPieces sep cs) : sep ∉ piece := by
  induction cs generalizing piece with
  | nil =>
    rw [List.mem_singleton.mp h]
    exact List.not_mem_nil
  | cons c cs ih =>
    rw [splitPieces] at h
    split at h
    · rcases List.mem_cons.mp h with rfl | h
      · exact List.not_mem_nil
      · exact ih h
    · rename_i hc
      cases hcs : splitPieces sep cs with
      | nil => exact absurd hcs (splitPieces_ne_nil sep cs)
      | cons first rest =>
        rw [hcs] at h ih
        rcases List.mem_cons.mp h with rfl | h
        · have hfirst : sep ∉ first := ih (List.mem_cons_self ..)
          rw [List.mem_cons, not_or]
          exact ⟨Ne.symm hc, hfirst⟩
        · exact ih (List.mem_cons_of_mem _ h)

theorem hasStart_eq_false {s : String} (h : '/' ∉ s.toList) : hasStart "/" s = false := by
  rw [hasStart, Option.isSome_eq_false_iff, Option.isNone_iff_eq_none]
  refine Option.eq_none_iff_forall_ne_some.mpr fun rest hrest => h ?_
  rw [dropStart?_eq_some_iff.mp hrest]
  exact List.mem_cons_self ..

/-- There is no separator in a piece. -/
theorem not_mem_of_mem_split {s piece : String} (h : piece ∈ split '/' s) : '/' ∉ piece.toList := by
  obtain ⟨cs, hcs, rfl⟩ := List.mem_map.mp h
  rw [String.toList_ofList]
  exact not_mem_of_mem_splitPieces hcs

theorem exists_of_hasEnd {p s : String} (h : hasEnd p s = true) : ∃ q, s = q ++ p := by
  rw [hasEnd, stripEnd?, Option.isSome_map] at h
  obtain ⟨rest, h⟩ := Option.isSome_iff_exists.mp h
  rw [dropStart?_eq_some_iff] at h
  refine ⟨String.ofList rest.reverse, String.toList_inj.mp ?_⟩
  simpa using congrArg List.reverse h

end Text

namespace Path

/-- Where one step leads from a place. -/
def Component.move (place : List String) : Component → List String
  | top => []
  | here => place
  | up => place.dropLast
  | entry name => place ++ [name]

/-- Only nothing added to nothing gives the empty path. -/
theorem eq_empty_of_join {p : Path} {n : String} (h : (p.join n).text = "") : n = "" := by
  rw [join] at h
  split at h
  · exact h
  · split at h <;> simp_all

end Path

namespace FileTree

/-! ### What is below -/

theorem mem_walkEntries_of_lookup (above : List String) {entries : List (String × FileTree)}
    {n : String} {t : FileTree} (h : NameMap.lookup n entries = some t) :
    (above ++ [n], t) ∈ walkEntries above entries ∧
      ∀ e ∈ walk (above ++ [n]) t, e ∈ walkEntries above entries := by
  induction entries with
  | nil => cases h
  | cons e entries ih =>
    obtain ⟨k, u⟩ := e
    rw [NameMap.lookup] at h
    rw [walkEntries]
    split at h
    · rename_i hk
      cases h
      subst hk
      refine ⟨List.mem_append_left _ (List.mem_cons_self ..), fun e he => ?_⟩
      exact List.mem_append_left _ (List.mem_cons_of_mem _ he)
    · obtain ⟨hself, hbelow⟩ := ih h
      exact ⟨List.mem_append_right _ hself, fun e he => List.mem_append_right _ (hbelow e he)⟩

/-- Everything below the top is listed. -/
theorem mem_walk_of_get? {t u : FileTree} {above names : List String}
    (h : t.get? names = some u) (hne : names ≠ []) : (above ++ names, u) ∈ t.walk above := by
  induction names generalizing t above with
  | nil => exact absurd rfl hne
  | cons n rest ih =>
    cases t with
    | file c => cases h
    | dir entries =>
      rw [get?] at h
      obtain ⟨t', ht', h⟩ := Option.bind_eq_some_iff.mp h
      obtain ⟨hself, hbelow⟩ := mem_walkEntries_of_lookup above ht'
      rw [walk]
      cases rest with
      | nil =>
        rw [get?] at h
        cases h
        exact hself
      | cons n' rest =>
        have := hbelow _ (ih h (by simp))
        rwa [List.append_assoc] at this

end FileTree

namespace Files

variable {fs : Files} {p q : Path} {names : List String}

/-! ### Following a path -/

/-- What a piece of a path says, if it says anything. -/
def ofPiece? : String → Option Path.Component
  | "" | "." => none
  | ".." => some .up
  | name => some (.entry name)

theorem step_eq {place : List String} {piece : String} (h : fs.step place piece = .ok names) :
    names = (ofPiece? piece).elim place (Path.Component.move place) := by
  rw [step] at h
  split at h
  · cases h
  · cases h
  · split at h
    · rename_i hskip
      cases h
      rcases hskip with rfl | rfl <;> rfl
    · rename_i hskip
      split at h
      · rename_i hup
        cases h
        subst hup
        rfl
      · rename_i hup
        have hentry : ofPiece? piece = some (.entry piece) := by
          unfold ofPiece?
          split <;> simp_all
        split at h
        · cases h
        · split at h
          · cases h
            rw [hentry]
            rfl
          · cases h

theorem foldlM_step_eq {pieces : List String} {start : List String}
    (h : pieces.foldlM fs.step start = .ok names) :
    names = (pieces.filterMap ofPiece?).foldl Path.Component.move start := by
  induction pieces generalizing start with
  | nil =>
    cases h
    rfl
  | cons piece pieces ih =>
    rw [List.foldlM_cons] at h
    obtain ⟨place, hplace, h⟩ := Except.bind_eq_ok_iff.mp h
    rw [ih h, step_eq hplace, List.filterMap_cons]
    cases ofPiece? piece <;> rfl

/-- Every step is one in a directory. -/
theorem exists_dir_of_step {place : List String} {piece : String}
    (h : fs.step place piece = .ok names) :
    ∃ entries, fs.tree.get? place = some (.dir entries) := by
  rw [step] at h
  split at h
  · cases h
  · cases h
  · rename_i entries hdir
    exact ⟨entries, hdir⟩

/-- An empty piece, as behind a separator at the end, leads from a directory to itself. -/
theorem step_empty {place : List String} {entries : List (String × FileTree)}
    (h : fs.tree.get? place = some (.dir entries)) : fs.step place "" = .ok place := by
  rw [step, h]
  rfl

/-- Before a further piece is a directory, whether or not there is a separator behind it. -/
theorem exists_dir_of_foldlM_step {start way more : List String} (hmore : more ≠ [])
    (h : (way ++ more).foldlM fs.step start = .ok names) :
    ∃ place entries, way.foldlM fs.step start = .ok place ∧
      (way ++ [""]).foldlM fs.step start = .ok place ∧
      fs.tree.get? place = some (.dir entries) ∧ more.foldlM fs.step place = .ok names := by
  rw [List.foldlM_append] at h
  obtain ⟨place, hplace, h⟩ := Except.bind_eq_ok_iff.mp h
  obtain ⟨n, rest, rfl⟩ := List.exists_cons_of_ne_nil hmore
  have hfirst := h
  rw [List.foldlM_cons] at hfirst
  obtain ⟨next, hnext, -⟩ := Except.bind_eq_ok_iff.mp hfirst
  obtain ⟨entries, hdir⟩ := exists_dir_of_step hnext
  refine ⟨place, entries, hplace, ?_, hdir, h⟩
  rw [List.foldlM_append, hplace]
  exact (congrArg (· >>= _) (step_empty hdir) :)

/-- A piece at the end that is no step, as an empty one, leads nowhere else. -/
theorem foldlM_step_of_append {start way : List String} {piece : String}
    (hpiece : ofPiece? piece = none) (h : (way ++ [piece]).foldlM fs.step start = .ok names) :
    way.foldlM fs.step start = .ok names := by
  rw [List.foldlM_append] at h
  obtain ⟨place, hplace, h⟩ := Except.bind_eq_ok_iff.mp h
  have hnames : names = place := by
    rw [foldlM_step_eq h, List.filterMap_cons, hpiece]
    rfl
  rw [hplace, hnames]

theorem components_eq (p : Path) : p.components = (if p.isAbsolute then [.top]
    else if (Text.split '/' p.text).head? == some "." then [.here] else [])
      ++ (Text.split '/' p.text).filterMap ofPiece? :=
  rfl

/-- Following a path is following its pieces from where it starts. -/
theorem exists_of_locate (h : fs.locate p = .ok names) :
    p.text ≠ "" ∧ ∃ start pieces, fs.origin p = .ok (start, pieces) ∧
      pieces.foldlM fs.step start = .ok names := by
  unfold locate at h
  split at h
  · cases h
  · rename_i hne
    obtain ⟨⟨start, pieces⟩, horigin, h⟩ := Except.bind_eq_ok_iff.mp h
    exact ⟨by simpa using hne, start, pieces, horigin, h⟩

/-- A path starts at the top or at the working directory. -/
theorem origin_cases {start pieces : List String} (hp : p.text ≠ "")
    (h : fs.origin p = .ok (start, pieces)) :
    (p.isAbsolute = true ∧ start = [] ∧ Text.split '/' p.text = "" :: pieces) ∨
      (p.isAbsolute = false ∧ start = fs.working ∧ Text.split '/' p.text = pieces) := by
  rw [origin] at h
  split at h
  · cases h
  · rcases Text.split_cases hp with ⟨habs, rest, hsplit⟩ | ⟨habs, first, rest, hsplit, hfirst⟩
    · rw [hsplit] at h ⊢
      cases h
      exact .inl ⟨habs, rfl, rfl⟩
    · rw [hsplit] at h ⊢
      split at h
      · rename_i heq
        cases heq
        exact absurd rfl hfirst
      · cases h
        exact .inr ⟨habs, rfl, rfl⟩

/-- What a path leads to is what its steps say. -/
theorem locate_eq (h : fs.locate p = .ok names) :
    names = p.components.foldl Path.Component.move fs.working := by
  obtain ⟨hp, start, pieces, horigin, h⟩ := exists_of_locate h
  rw [foldlM_step_eq h, components_eq, List.foldl_append]
  rcases origin_cases hp horigin with ⟨habs, rfl, hsplit⟩ | ⟨habs, rfl, hsplit⟩
  · rw [habs, hsplit]
    rfl
  · rw [habs, hsplit, if_neg Bool.false_ne_true]
    split <;> rfl

/-- Paths with the same steps lead to the same place. -/
theorem eq_of_same {names' : List String} (h : p.same q = true) (hp : fs.locate p = .ok names)
    (hq : fs.locate q = .ok names') : names = names' := by
  rw [locate_eq hp, locate_eq hq, beq_iff_eq.mp h]

theorem locate_of_split (hp : p.text ≠ "") (hpath : isPath p = true) {first : String}
    {rest : List String} (hsplit : Text.split '/' p.text = first :: rest) :
    fs.locate p = if first = "" then rest.foldlM fs.step []
      else (first :: rest).foldlM fs.step fs.working := by
  have hempty : p.text.isEmpty = false := by simpa using hp
  have horigin : fs.origin p
      = .ok (if first = "" then ([], rest) else (fs.working, first :: rest)) := by
    rw [origin, hpath, hsplit]
    by_cases hfirst : first = ""
    · subst hfirst
      rfl
    · simp only [if_neg hfirst, Bool.not_true, Bool.false_eq_true, if_false]
      split
      · rename_i heq
        cases heq
        exact absurd rfl hfirst
      · rfl
  rw [locate, hempty, horigin, if_neg Bool.false_ne_true]
  by_cases hfirst : first = ""
  · rw [if_pos hfirst, if_pos hfirst]
    rfl
  · rw [if_neg hfirst, if_neg hfirst]
    rfl

/-- The pieces of a path that goes on from another, and those of the path itself, which may end in a
separator. -/
theorem exists_pieces_of_join {n : String} (hp : p.text ≠ "")
    (hstart : Text.hasStart "/" n = false) :
    ∃ first rest, Text.split '/' (p.join n).text = first :: (rest ++ Text.split '/' n) ∧
      (Text.split '/' p.text = first :: rest ∨ Text.split '/' p.text = first :: (rest ++ [""])) := by
  have hempty : p.text.isEmpty = false := by simpa using hp
  rw [Path.join, hstart, hempty, Bool.or_false, if_neg Bool.false_ne_true]
  split
  · rename_i hend
    obtain ⟨q, hq⟩ := Text.exists_of_hasEnd hend
    have hsplit : Text.split '/' p.text = Text.split '/' q ++ [""] := by
      have := Text.split_append q ""
      rwa [String.append_empty, ← hq] at this
    obtain ⟨first, rest, hpieces⟩ := List.exists_cons_of_ne_nil (Text.split_ne_nil q)
    refine ⟨first, rest, ?_, .inr ?_⟩
    · dsimp only
      rw [hq, Text.split_append, hpieces]
      rfl
    · rw [hsplit, hpieces]
      rfl
  · obtain ⟨first, rest, hpieces⟩ := List.exists_cons_of_ne_nil (Text.split_ne_nil p.text)
    refine ⟨first, rest, ?_, .inl hpieces⟩
    dsimp only
    rw [Text.split_append, hpieces]
    rfl

theorem isPath_of_join {n : String} (hstart : Text.hasStart "/" n = false)
    (h : isPath (p.join n) = true) : isPath p = true := by
  rw [isPath, Bool.not_eq_true', List.contains_eq_mem, decide_eq_false_iff_not] at h ⊢
  intro hmem
  refine h ?_
  rw [Path.join, hstart, Bool.false_or]
  split
  · rename_i hempty
    rw [String.isEmpty_iff.mp hempty] at hmem
    cases hmem
  · split <;> simp [hmem]

theorem isPath_join {n : String} (hp : isPath p = true) (hn : isPath ⟨n⟩ = true) :
    isPath (p.join n) = true := by
  rw [isPath, Bool.not_eq_true', List.contains_eq_mem, decide_eq_false_iff_not] at hp hn ⊢
  rw [Path.join]
  split
  · exact hn
  · split <;> simp [hp, hn]

theorem isPath_of_locate (h : fs.locate p = .ok names) : isPath p = true := by
  obtain ⟨-, start, pieces, horigin, -⟩ := exists_of_locate h
  rw [origin] at horigin
  split at horigin
  · cases horigin
  · rename_i hpath
    simpa using hpath

/-- A path that goes on from another leads through a directory, to where the pieces lead from
there. -/
theorem locate_of_join {n : String} (hp : p.text ≠ "") (hstart : Text.hasStart "/" n = false)
    (h : fs.locate (p.join n) = .ok names) : ∃ place entries, fs.locate p = .ok place ∧
      fs.tree.get? place = some (.dir entries) ∧
      (Text.split '/' n).foldlM fs.step place = .ok names := by
  obtain ⟨first, rest, hjoined, hpieces⟩ := exists_pieces_of_join (p := p) hp hstart
  have hpath := isPath_of_locate h
  have hsplit : ∀ pieces, Text.split '/' p.text = first :: pieces →
      fs.locate p = if first = "" then pieces.foldlM fs.step []
        else (first :: pieces).foldlM fs.step fs.working :=
    fun pieces => locate_of_split hp (isPath_of_join hstart hpath)
  rw [locate_of_split (exists_of_locate h).1 hpath hjoined, ← List.cons_append] at h
  by_cases hfirst : first = ""
  · rw [if_pos hfirst] at h
    obtain ⟨place, entries, hplace, hplace', hdir, hmore⟩ :=
      exists_dir_of_foldlM_step (Text.split_ne_nil n) h
    refine ⟨place, entries, ?_, hdir, hmore⟩
    rcases hpieces with hpieces | hpieces
    · rw [hsplit _ hpieces, if_pos hfirst, hplace]
    · rw [hsplit _ hpieces, if_pos hfirst, hplace']
  · rw [if_neg hfirst] at h
    obtain ⟨place, entries, hplace, hplace', hdir, hmore⟩ :=
      exists_dir_of_foldlM_step (Text.split_ne_nil n) h
    refine ⟨place, entries, ?_, hdir, hmore⟩
    rcases hpieces with hpieces | hpieces
    · rw [hsplit _ hpieces, if_neg hfirst, hplace]
    · rw [hsplit _ hpieces, if_neg hfirst, ← List.cons_append, hplace']

/-- Where a path leads decides where a path that goes on from it leads. -/
theorem locate_join {n : String} {place : List String} (hp : fs.locate p = .ok place)
    (hn : isPath ⟨n⟩ = true) (hstart : Text.hasStart "/" n = false) :
    fs.locate (p.join n) = (Text.split '/' n).foldlM fs.step place := by
  have hne := (exists_of_locate hp).1
  have hpath := isPath_of_locate hp
  obtain ⟨first, rest, hjoined, hpieces⟩ := exists_pieces_of_join hne hstart
  have hjoin : (p.join n).text ≠ "" := by
    intro hempty
    have hone : (Text.split '/' "").length = 1 := rfl
    have hpos : 0 < (Text.split '/' n).length := List.length_pos_of_ne_nil (Text.split_ne_nil n)
    rw [← hempty, hjoined, List.length_cons, List.length_append] at hone
    omega
  rw [locate_of_split hjoin (isPath_join hpath hn) hjoined, ← List.cons_append]
  by_cases hfirst : first = ""
  · have hrest : rest.foldlM fs.step [] = .ok place := by
      rcases hpieces with hpieces | hpieces
      · rwa [locate_of_split hne hpath hpieces, if_pos hfirst] at hp
      · rw [locate_of_split hne hpath hpieces, if_pos hfirst] at hp
        exact foldlM_step_of_append rfl hp
    rw [if_pos hfirst, List.foldlM_append, hrest]
    rfl
  · have hrest : (first :: rest).foldlM fs.step fs.working = .ok place := by
      rcases hpieces with hpieces | hpieces
      · rwa [locate_of_split hne hpath hpieces, if_neg hfirst] at hp
      · rw [locate_of_split hne hpath hpieces, if_neg hfirst, ← List.cons_append] at hp
        exact foldlM_step_of_append rfl hp
    rw [if_neg hfirst, List.foldlM_append, hrest]
    rfl

/-! ### Names in paths -/

theorem ofPiece?_eq_entry {piece n : String} (h : ofPiece? piece = some (.entry n)) : piece = n := by
  unfold ofPiece? at h
  split at h
  · cases h
  · cases h
  · cases h
  · exact Path.Component.entry.inj (Option.some.inj h)

/-- The name of an entry is none of the pieces that say something else, or nothing. -/
theorem ne_of_entry {n : String} (h : ofPiece? n = some (.entry n)) :
    n ≠ "" ∧ n ≠ "." ∧ n ≠ ".." := by
  refine ⟨?_, ?_, ?_⟩ <;> rintro rfl <;> cases h

/-- The last piece of a path is its last step. -/
theorem components_eq_append {pieces : List String} {piece : String} {c : Path.Component}
    (hsplit : Text.split '/' p.text = pieces ++ [piece]) (hc : ofPiece? piece = some c) :
    ∃ above, p.components = above ++ [c] := by
  rw [components_eq, hsplit, List.filterMap_append, List.filterMap_cons, hc, ← List.append_assoc]
  exact ⟨_, rfl⟩

/-- There is no separator in the name of an entry. -/
theorem not_mem_of_fileName? {n : String} (h : p.fileName? = some n) : '/' ∉ n.toList := by
  rw [Path.fileName?] at h
  split at h
  · rename_i name hlast
    cases h
    have hmem : Path.Component.entry n ∈ p.components := List.mem_of_getLast? hlast
    rw [components_eq] at hmem
    rcases List.mem_append.mp hmem with hmem | hmem
    · split at hmem
      · simp at hmem
      · split at hmem <;> simp at hmem
    · obtain ⟨piece, hpiece, hentry⟩ := List.mem_filterMap.mp hmem
      rw [← ofPiece?_eq_entry hentry]
      exact Text.not_mem_of_mem_split hpiece
  · cases h

/-- A name without a separator that is the only step of a path is the name of that step. -/
theorem ofPiece?_of_plainName? {n : String} (hn : '/' ∉ n.toList)
    (h : (Path.plainName? n).isSome = true) : ofPiece? n = some (.entry n) := by
  have hcomponents := components_eq ⟨n⟩
  rw [Text.split_eq_singleton hn] at hcomponents
  rw [Path.plainName?] at h
  split at h
  · rename_i m hm
    rw [hm] at hcomponents
    have hmem : Path.Component.entry m ∈ [n].filterMap ofPiece? := by
      have hall := List.mem_singleton_self (Path.Component.entry m)
      rw [hcomponents] at hall
      rcases List.mem_append.mp hall with hall | hall
      · split at hall
        · simp at hall
        · split at hall <;> simp at hall
      · exact hall
    obtain ⟨piece, hpiece, hentry⟩ := List.mem_filterMap.mp hmem
    rw [List.mem_singleton.mp hpiece] at hentry
    rw [hentry, ofPiece?_eq_entry hentry]
  · cases h

/-- What a path starts with is decided by its first piece. -/
theorem components_of_split (hp : p.text ≠ "") {first : String} {rest : List String}
    (hsplit : Text.split '/' p.text = first :: rest) :
    p.components = (if first = "" then [.top] else if first = "." then [.here] else [])
      ++ (first :: rest).filterMap ofPiece? := by
  rw [components_eq, hsplit, Path.isAbsolute]
  rcases Text.split_cases hp with ⟨habs, _, htop⟩ | ⟨habs, _, _, hrelative, hne⟩
  · rw [hsplit, List.cons.injEq] at htop
    rw [habs, htop.1]
    rfl
  · rw [hsplit, List.cons.injEq] at hrelative
    have hfirst : first ≠ "" := hrelative.1 ▸ hne
    rw [habs]
    simp [hfirst]

/-- A path that goes on with a name has one more step. -/
theorem components_join {n : String} (hn : '/' ∉ n.toList) (hentry : ofPiece? n = some (.entry n)) :
    (p.join n).components = p.components ++ [.entry n] := by
  have hsplit : Text.split '/' n = [n] := Text.split_eq_singleton hn
  obtain ⟨hname, hdot, -⟩ := ne_of_entry hentry
  have hsay : [n].filterMap ofPiece? = [.entry n] := by
    rw [List.filterMap_cons, hentry]
    rfl
  by_cases hp : p.text = ""
  · have hjoin : p.join n = ⟨n⟩ := by simp [Path.join, hp]
    have hempty : p.components = [] := by
      rw [show p = ⟨""⟩ from congrArg Path.mk hp]
      rfl
    rw [hjoin, hempty, components_of_split hname hsplit, if_neg hname, if_neg hdot, hsay]
  · obtain ⟨first, rest, hjoined, hpieces⟩ := exists_pieces_of_join hp (Text.hasStart_eq_false hn)
    have hjoin : (p.join n).text ≠ "" := fun hempty => hname (Path.eq_empty_of_join hempty)
    rw [components_of_split hjoin hjoined, hsplit, ← List.cons_append, List.filterMap_append, hsay,
      ← List.append_assoc]
    rcases hpieces with hpieces | hpieces
    · rw [components_of_split hp hpieces]
    · rw [components_of_split hp hpieces, ← List.cons_append, List.filterMap_append,
        show [""].filterMap ofPiece? = [] from rfl, List.append_nil]

/-- Where a path leads that ends in a name: to the entry of that name where the path before it
leads. -/
theorem eq_of_locate_join {n : String} (hn : '/' ∉ n.toList)
    (hentry : ofPiece? n = some (.entry n)) (h : fs.locate (p.join n) = .ok names) :
    names = p.components.foldl Path.Component.move fs.working ++ [n] := by
  rw [locate_eq h, components_join hn hentry, List.foldl_append]
  rfl

/-- The path of a place is the path of the directory above, which at the top says nothing, with the
name behind it. -/
theorem text_absolute_concat (above : List String) (n : String) : (absolute (above ++ [n])).text
    = (if above = [] then "" else (absolute above).text) ++ "/" ++ n := by
  by_cases habove : above = []
  · rw [if_pos habove, habove, absolute, List.nil_append, String.intercalate_singleton,
      String.empty_append]
  · rw [if_neg habove, absolute, String.intercalate_append_of_ne_nil habove (by simp),
      String.intercalate_singleton]
    simp [absolute, String.append_assoc]

/-- The last step of the path of a place is the entry of its name. -/
theorem getLast?_components_absolute {above : List String} {n : String} (hn : '/' ∉ n.toList)
    (hentry : ofPiece? n = some (.entry n)) :
    (absolute (above ++ [n])).components.getLast? = some (.entry n) := by
  have hsplit : ∃ pieces, Text.split '/' (absolute (above ++ [n])).text = pieces ++ [n] := by
    rw [text_absolute_concat, Text.split_append, Text.split_eq_singleton hn]
    exact ⟨_, rfl⟩
  obtain ⟨pieces, hsplit⟩ := hsplit
  obtain ⟨c, hcomponents⟩ := components_eq_append hsplit hentry
  rw [hcomponents, List.getLast?_concat]

/-- The path of a place ends in the name of the place. -/
theorem fileName?_absolute {above : List String} {n : String} (hn : '/' ∉ n.toList)
    (hentry : ofPiece? n = some (.entry n)) : (absolute (above ++ [n])).fileName? = some n := by
  rw [Path.fileName?, getLast?_components_absolute hn hentry]

/-! ### Directories -/

/-- The places of all directories. -/
def directories (fs : Files) : List (List String) :=
  [] :: ((fs.tree.walk []).filter (·.2.isDir)).map Prod.fst

theorem mem_directories {place : List String} {entries : List (String × FileTree)}
    (h : fs.tree.get? place = some (.dir entries)) : place ∈ fs.directories := by
  by_cases hne : place = []
  · rw [hne]
    exact List.mem_cons_self ..
  · have hwalk : (place, .dir entries) ∈ fs.tree.walk [] := FileTree.mem_walk_of_get? h hne
    refine List.mem_cons_of_mem _ (List.mem_map.mpr ⟨(place, .dir entries), ?_, rfl⟩)
    exact List.mem_filter.mpr ⟨hwalk, rfl⟩

end Files

end Cookbook
