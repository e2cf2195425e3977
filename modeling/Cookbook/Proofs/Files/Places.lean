import Cookbook.Proofs.Files

/-!
# The paths of places

The path of a place is put together from the names that lead to it. It leads back to the place if
the names have no separator in them and each of them leads from one directory to the next, and that
holds of every place that a path leads to. Only the working directory is taken as it is, so there it
has to be asked for.

So a path and the path of its place can be used for each other, whatever one goes on with.

## Main definitions

* `Files.Steady`: names that lead to themselves.

## Main results

* `Files.locate_absolute`: the path of a place leads to the place.
* `Files.Steady.parent?`: the path above the path of a place.
* `Files.locate_trimEnd`: where a path leads without an end that is no step.
* `Files.get_join_eq`: going on from two paths to the same place.
* `Files.exists_of_locate_plainName`: going on with another spelling of a name.
-/

namespace Cookbook

namespace Text

/-- What is in a piece is in the text. -/
theorem mem_of_mem_splitPieces {sep c : Char} {cs piece : List Char}
    (h : piece ∈ splitPieces sep cs) (hc : c ∈ piece) : c ∈ cs := by
  induction cs generalizing piece with
  | nil =>
    rw [List.mem_singleton.mp h] at hc
    cases hc
  | cons d ds ih =>
    rw [splitPieces] at h
    split at h
    · rcases List.mem_cons.mp h with rfl | h
      · cases hc
      · exact List.mem_cons_of_mem _ (ih h hc)
    · cases hds : splitPieces sep ds with
      | nil => exact absurd hds (splitPieces_ne_nil sep ds)
      | cons first rest =>
        rw [hds] at h ih
        rcases List.mem_cons.mp h with rfl | h
        · rcases List.mem_cons.mp hc with rfl | hc
          · exact List.mem_cons_self ..
          · exact List.mem_cons_of_mem _ (ih (List.mem_cons_self ..) hc)
        · exact List.mem_cons_of_mem _ (ih (List.mem_cons_of_mem _ h) hc)

theorem mem_of_mem_split {s piece : String} {c : Char} (h : piece ∈ split '/' s)
    (hc : c ∈ piece.toList) : c ∈ s.toList := by
  obtain ⟨cs, hcs, rfl⟩ := List.mem_map.mp h
  rw [String.toList_ofList] at hc
  exact mem_of_mem_splitPieces hcs hc

/-- Pieces without separators are found again in what is put together from them. -/
theorem splitPieces_joinPieces {sep : Char} {pieces : List (List Char)} (hne : pieces ≠ [])
    (hpieces : ∀ piece ∈ pieces, sep ∉ piece) :
    splitPieces sep (joinPieces sep pieces) = pieces := by
  fun_induction joinPieces sep pieces with
  | case1 => exact absurd rfl hne
  | case2 piece => exact splitPieces_eq_singleton (hpieces piece (List.mem_singleton_self piece))
  | case3 piece pieces hmore ih =>
    rw [List.forall_mem_cons] at hpieces
    rw [splitPieces_append, splitPieces_eq_singleton hpieces.1,
      ih (fun hnil => hmore hnil) hpieces.2]
    rfl

theorem toList_intercalate {sep : Char} {s : String} (hs : s.toList = [sep]) (names : List String) :
    (s.intercalate names).toList = joinPieces sep (names.map String.toList) := by
  induction names with
  | nil => simp [joinPieces]
  | cons n names ih =>
    cases names with
    | nil => simp [joinPieces]
    | cons m names =>
      rw [String.intercalate_cons_of_ne_nil (by simp), String.toList_append, String.toList_append,
        ih, hs]
      simp [joinPieces]

/-- Names without separators are the pieces of what is put together from them. -/
theorem split_intercalate_of {sep : Char} {s : String} (hs : s.toList = [sep]) {names : List String}
    (hne : names ≠ []) (hnames : ∀ n ∈ names, sep ∉ n.toList) :
    split sep (s.intercalate names) = names := by
  rw [split, toList_intercalate hs, splitPieces_joinPieces (by simpa using hne) (by simpa)]
  simp

theorem split_intercalate {names : List String} (hne : names ≠ [])
    (hnames : ∀ n ∈ names, '/' ∉ n.toList) : split '/' ("/".intercalate names) = names :=
  split_intercalate_of rfl hne hnames

theorem mem_intercalate {names : List String} {c : Char}
    (h : c ∈ ("/".intercalate names).toList) : c = '/' ∨ ∃ n ∈ names, c ∈ n.toList := by
  induction names with
  | nil => simp at h
  | cons n names ih =>
    by_cases hrest : names = []
    · rw [hrest, String.intercalate_singleton] at h
      exact .inr ⟨n, List.mem_cons_self .., h⟩
    · rw [String.intercalate_cons_of_ne_nil hrest, String.toList_append, String.toList_append,
        List.mem_append, List.mem_append] at h
      rcases h with (h | h) | h
      · exact .inr ⟨n, List.mem_cons_self .., h⟩
      · exact .inl (List.mem_singleton.mp h)
      · refine (ih h).imp_right ?_
        rintro ⟨m, hm, hc⟩
        exact ⟨m, List.mem_cons_of_mem _ hm, hc⟩

/-- Only the empty text is a single empty piece. -/
theorem eq_empty_of_split {s : String} (h : split '/' s = [""]) : s = "" := by
  have hpieces : splitPieces '/' s.toList = [[]] := by
    obtain ⟨cs, hcs, hempty⟩ := List.map_eq_singleton_iff.mp h
    have hnil : cs = [] := by simpa using congrArg String.toList hempty
    rw [hcs, hnil]
  have hjoin := joinPieces_splitPieces '/' s.toList
  rw [hpieces] at hjoin
  exact String.toList_eq_nil_iff.mp hjoin.symm

end Text

namespace Files

variable {fs : Files} {p q : Path} {names place start : List String} {piece n : String}

/-- Whether a name can be a piece of a path: it has no separator and no NUL. -/
def IsPiece (n : String) : Prop := '/' ∉ n.toList ∧ Char.ofNat 0 ∉ n.toList

theorem isPiece_of_mem_split (hp : isPath p = true) (h : piece ∈ Text.split '/' p.text) :
    IsPiece piece := by
  refine ⟨Text.not_mem_of_mem_split h, fun hc => ?_⟩
  rw [isPath, Bool.not_eq_true', List.contains_eq_mem, decide_eq_false_iff_not] at hp
  exact hp (Text.mem_of_mem_split h hc)

/-- Names that lead, one after the other, to what they name. -/
structure Steady (fs : Files) (place : List String) : Prop where
  pieces : ∀ n ∈ place, IsPiece n
  leads : place.foldlM fs.step [] = .ok place

theorem Steady.nil : Steady fs [] := ⟨by simp, rfl⟩

/-! ### Steps between steady places -/

theorem length_le_of_foldlM_step {pieces : List String}
    (h : pieces.foldlM fs.step start = .ok names) :
    names.length ≤ start.length + pieces.length := by
  induction pieces generalizing start with
  | nil =>
    cases h
    simp
  | cons piece pieces ih =>
    rw [List.foldlM_cons] at h
    obtain ⟨next, hnext, h⟩ := Except.bind_eq_ok_iff.mp h
    have hstep : next.length ≤ start.length + 1 := by
      rw [step_eq hnext]
      rcases ofPiece? piece with _ | _ | _ | _ | n <;> simp [Path.Component.move]
      omega
    have hrest := ih h
    rw [List.length_cons]
    omega

/-- Steady names end in the name of an entry, and those before it are steady. -/
theorem Steady.of_concat (h : Steady fs (place ++ [n])) :
    Steady fs place ∧ ofPiece? n = some (.entry n) := by
  have hpieces : ∀ m ∈ place, IsPiece m := fun m hm => h.pieces m (List.mem_append_left _ hm)
  have hleads := h.leads
  rw [List.foldlM_append] at hleads
  obtain ⟨next, hnext, hlast⟩ := Except.bind_eq_ok_iff.mp hleads
  -- the names above cannot lead further than there are names, so the last one is a step down
  have hlength : next.length ≤ place.length := by simpa using length_le_of_foldlM_step hnext
  have hdown : place ++ [n] = ([n].filterMap ofPiece?).foldl Path.Component.move next :=
    foldlM_step_eq hlast
  rw [List.filterMap_cons, List.filterMap_nil] at hdown
  have hlong := congrArg List.length hdown
  cases hn : ofPiece? n with
  | none =>
    rw [hn] at hlong
    simp at hlong
    omega
  | some c =>
    rw [hn] at hdown hlong
    cases c with
    | entry m =>
      have hsame : place ++ [n] = next ++ [m] := hdown
      rw [← (List.append_inj' hsame rfl).1] at hnext
      exact ⟨⟨hpieces, hnext⟩, by rw [ofPiece?_eq_entry hn]⟩
    | _ =>
      simp [Path.Component.move] at hlong
      try omega

/-- The directory above a steady place is steady. -/
theorem Steady.dropLast (h : Steady fs place) : Steady fs place.dropLast := by
  rcases List.eq_nil_or_concat place with rfl | ⟨above, n, rfl⟩
  · exact .nil
  rw [List.concat_eq_append] at h ⊢
  rw [List.dropLast_concat]
  exact h.of_concat.1

theorem Steady.step (h : Steady fs place) (hpiece : IsPiece piece)
    (hstep : fs.step place piece = .ok names) : Steady fs names := by
  have hnames := step_eq hstep
  cases hc : ofPiece? piece with
  | none =>
    rw [hc] at hnames
    rwa [hnames]
  | some c =>
    rw [hc] at hnames
    cases c with
    | top =>
      rw [hnames]
      exact .nil
    | here => rwa [hnames]
    | up =>
      rw [hnames]
      exact h.dropLast
    | entry m =>
      have hm : m = piece := (ofPiece?_eq_entry hc).symm
      subst hm
      have heq : names = place ++ [m] := hnames
      refine ⟨fun x hx => ?_, ?_⟩
      · rw [heq] at hx
        rcases List.mem_append.mp hx with hx | hx
        · exact h.pieces x hx
        · rwa [List.mem_singleton.mp hx]
      · rw [heq, List.foldlM_append, h.leads]
        rw [heq] at hstep
        exact (congrArg (· >>= fun s => pure s) hstep :)

theorem Steady.foldlM {pieces : List String} (h : Steady fs start)
    (hpieces : ∀ piece ∈ pieces, IsPiece piece) (hfold : pieces.foldlM fs.step start = .ok names) :
    Steady fs names :=
  Except.foldlM_invariant (P := Steady fs)
    (fun _ hplace piece hpiece _ hstep => hplace.step (hpieces piece hpiece) hstep) h hfold

/-- Where a path leads is steady, if the working directory is. -/
theorem steady_of_locate (hstart : p.isAbsolute = true ∨ Steady fs fs.working)
    (h : fs.locate p = .ok names) : Steady fs names := by
  have hgood : ∀ piece ∈ Text.split '/' p.text, IsPiece piece :=
    fun piece => isPiece_of_mem_split (isPath_of_locate h)
  obtain ⟨hne, start, pieces, horigin, hfold⟩ := exists_of_locate h
  rcases origin_cases hne horigin with ⟨-, rfl, hsplit⟩ | ⟨habs, rfl, hsplit⟩
  · refine Steady.nil.foldlM (fun piece hpiece => hgood piece ?_) hfold
    rw [hsplit]
    exact List.mem_cons_of_mem _ hpiece
  · rw [habs] at hstart
    refine (hstart.resolve_left Bool.false_ne_true).foldlM (fun piece hpiece => hgood piece ?_) hfold
    rwa [hsplit]

/-! ### Back to a place -/

/-- If a path leads anywhere, the top is a directory. -/
theorem exists_dir_of_locate (h : fs.locate p = .ok names) : ∃ entries, fs.tree = .dir entries := by
  obtain ⟨hne, start, pieces, horigin, hfold⟩ := exists_of_locate h
  have hpieces : pieces ≠ [] := by
    rintro rfl
    rcases origin_cases hne horigin with ⟨-, -, hsplit⟩ | ⟨-, -, hsplit⟩
    · exact hne (Text.eq_empty_of_split hsplit)
    · exact Text.split_ne_nil _ hsplit
  have hway : ([] ++ pieces).foldlM fs.step start = .ok names := hfold
  obtain ⟨_, _, hstart, -, hdir, -⟩ := exists_dir_of_foldlM_step hpieces hway
  cases hstart
  cases htree : fs.tree with
  | dir entries => exact ⟨entries, rfl⟩
  | file c =>
    rw [htree] at hdir
    cases start <;> cases hdir

theorem isAbsolute_absolute (names : List String) : (absolute names).isAbsolute = true := by
  simp [absolute, Path.isAbsolute, Text.hasStart, Text.dropStart?]

theorem Steady.isPath (h : Steady fs place) : isPath (absolute place) = true := by
  rw [Files.isPath, Bool.not_eq_true', List.contains_eq_mem, decide_eq_false_iff_not, absolute,
    String.toList_append, List.mem_append, not_or]
  refine ⟨by decide, fun hmem => ?_⟩
  rcases Text.mem_intercalate hmem with heq | ⟨n, hn, hc⟩
  · revert heq
    decide
  · exact (h.pieces n hn).2 hc

/-- The path of a steady place leads there. -/
theorem Steady.locate {entries : List (String × FileTree)} (h : Steady fs place)
    (htop : fs.tree = .dir entries) : fs.locate (absolute place) = .ok place := by
  have hne : (absolute place).text ≠ "" := by
    intro hempty
    have hstart := isAbsolute_absolute place
    rw [Path.isAbsolute, hempty] at hstart
    cases hstart
  have hsplit : Text.split '/' (absolute place).text
      = "" :: Text.split '/' ("/".intercalate place) := by
    have := Text.split_append "" ("/".intercalate place)
    rwa [String.empty_append] at this
  rw [locate_of_split hne h.isPath hsplit, if_pos rfl]
  by_cases hplace : place = []
  · rw [hplace]
    have hget : fs.tree.get? [] = some (.dir entries) := by rw [htop]; rfl
    exact (congrArg (· >>= fun s => pure s) (step_empty hget) :)
  · rw [Text.split_intercalate hplace fun n hn => (h.pieces n hn).1, h.leads]

/-- The path of a place leads to the place. -/
theorem locate_absolute (hworking : fs.locate (absolute fs.working) = .ok fs.working)
    (h : fs.locate p = .ok place) : fs.locate (absolute place) = .ok place := by
  have hstart : Steady fs fs.working :=
    steady_of_locate (.inl (isAbsolute_absolute fs.working)) hworking
  obtain ⟨entries, htop⟩ := exists_dir_of_locate h
  exact (steady_of_locate (.inr hstart) h).locate htop

/-! ### The directory above -/

/-- Nothing is left out at the end of a path that ends in a name. -/
theorem trimEnd_of_entry {cs : List Char} (hn : '/' ∉ n.toList)
    (hentry : ofPiece? n = some (.entry n)) :
    Path.trimEnd (n.toList.reverse ++ '/' :: cs) = n.toList.reverse ++ '/' :: cs := by
  obtain ⟨hempty, hname, -⟩ := ne_of_entry hentry
  have hdot : n.toList.reverse ≠ ['.'] := fun hreverse =>
    hname (String.toList_inj.mp (by simpa using congrArg List.reverse hreverse))
  rw [← List.mem_reverse] at hn
  cases hcs : n.toList.reverse with
  | nil => exact absurd (by simpa using hcs) hempty
  | cons c rest =>
    rw [hcs] at hn hdot
    rw [List.cons_append]
    -- the last character is no separator, and a dot with a separator before it would be the name
    unfold Path.trimEnd
    split
    · simp_all
    · cases rest <;> simp_all
    · rfl

theorem reverse_toList_append (s n : String) :
    (s ++ "/" ++ n).toList.reverse = n.toList.reverse ++ '/' :: s.toList.reverse := by
  simp

theorem Steady.trimEnd (h : Steady fs (place ++ [n])) :
    Path.trimEnd (absolute (place ++ [n])).text.toList.reverse
      = (absolute (place ++ [n])).text.toList.reverse := by
  have hn : '/' ∉ n.toList := (h.pieces n List.mem_concat_self).1
  rw [text_absolute_concat, reverse_toList_append, trimEnd_of_entry hn h.of_concat.2]

/-- Above a path that ends in a name is what is in front of the name, without the end of that. -/
theorem parent?_append (above : String) (hn : '/' ∉ n.toList)
    (hentry : ofPiece? n = some (.entry n)) : Path.parent? ⟨above ++ "/" ++ n⟩
      = some ⟨String.ofList (Path.trimEnd ('/' :: above.toList.reverse)).reverse⟩ := by
  have hskip : ∀ c ∈ n.toList.reverse, (c != '/') = true := by
    intro c hc
    rw [bne_iff_ne]
    rintro rfl
    exact hn (List.mem_reverse.mp hc)
  have hsplit : Text.split '/' (above ++ "/" ++ n) = Text.split '/' above ++ [n] := by
    rw [Text.split_append, Text.split_eq_singleton hn]
  obtain ⟨components, hcomponents⟩ := components_eq_append (p := ⟨above ++ "/" ++ n⟩) hsplit hentry
  rw [Path.parent?, hcomponents, List.getLast?_concat]
  dsimp only
  rw [reverse_toList_append, trimEnd_of_entry hn hentry, List.dropWhile_append_of_pos hskip,
    List.dropWhile_cons, if_neg (by simp)]

/-- Above the path of a steady place is the path of the directory above. -/
theorem Steady.parent? (h : Steady fs (place ++ [n])) :
    (absolute (place ++ [n])).parent? = some (absolute place) := by
  have hn : '/' ∉ n.toList := (h.pieces n List.mem_concat_self).1
  obtain ⟨hplace, hentry⟩ := h.of_concat
  have htext : absolute (place ++ [n])
      = ⟨(if place = [] then "" else (absolute place).text) ++ "/" ++ n⟩ :=
    congrArg Path.mk (text_absolute_concat place n)
  rw [htext, parent?_append _ hn hentry]
  rcases List.eq_nil_or_concat place with rfl | ⟨above, m, rfl⟩
  · rfl
  · rw [List.concat_eq_append] at hplace ⊢
    have hne : (absolute (above ++ [m])).text.toList.reverse.isEmpty = false := by simp [absolute]
    rw [if_neg (by simp), Path.trimEnd, hne, if_neg Bool.false_ne_true, hplace.trimEnd,
      List.reverse_reverse, String.ofList_toList]

/-- What is no step at the end of a path makes no difference to where it leads. -/
theorem locate_of_append {r : String} (piece : String) (hr : r ≠ "") (hpiece : '/' ∉ piece.toList)
    (hskip : ofPiece? piece = none) (h : fs.locate ⟨r ++ "/" ++ piece⟩ = .ok place) :
    fs.locate ⟨r⟩ = .ok place := by
  have hpath : isPath ⟨r⟩ = true := by
    have hwhole := isPath_of_locate h
    rw [isPath, Bool.not_eq_true', List.contains_eq_mem, decide_eq_false_iff_not] at hwhole ⊢
    exact fun hmem => hwhole (by simp [hmem])
  obtain ⟨first, rest, hsplit⟩ := List.exists_cons_of_ne_nil (Text.split_ne_nil r)
  have hwhole : Text.split '/' (r ++ "/" ++ piece) = first :: (rest ++ [piece]) := by
    rw [Text.split_append, Text.split_eq_singleton hpiece, hsplit, List.cons_append]
  rw [locate_of_split (by simp) (isPath_of_locate h) hwhole] at h
  rw [locate_of_split hr hpath hsplit]
  by_cases hfirst : first = ""
  · rw [if_pos hfirst] at h ⊢
    exact foldlM_step_of_append hskip h
  · rw [if_neg hfirst, ← List.cons_append] at h
    rw [if_neg hfirst]
    exact foldlM_step_of_append hskip h

theorem ofList_reverse_append (ending rest : List Char) :
    String.ofList (ending ++ '/' :: rest).reverse
      = String.ofList rest.reverse ++ "/" ++ String.ofList ending.reverse := by
  refine String.toList_inj.mp ?_
  simp

/-- Without the end that is no step a path leads to the same place. -/
theorem locate_trimEnd (cs : List Char) (h : fs.locate ⟨String.ofList cs.reverse⟩ = .ok place) :
    fs.locate ⟨String.ofList (Path.trimEnd cs).reverse⟩ = .ok place := by
  have hkept : ∀ {rest : List Char}, rest.isEmpty = false → String.ofList rest.reverse ≠ "" := by
    intro rest hrest hempty
    have hnil : rest.reverse = [] := by simpa using congrArg String.toList hempty
    rw [List.reverse_eq_nil_iff.mp hnil] at hrest
    cases hrest
  fun_induction Path.trimEnd cs with
  | case1 rest hrest =>
    rw [List.isEmpty_iff.mp hrest] at h
    exact h
  | case2 rest hrest ih =>
    rw [Bool.not_eq_true] at hrest
    refine ih (locate_of_append "" (hkept hrest) (by simp) rfl ?_)
    rwa [← List.nil_append ('/' :: rest), ofList_reverse_append] at h
  | case3 rest hrest =>
    -- the top of the file system, with or without a dot behind it
    rw [List.isEmpty_iff.mp hrest] at h
    exact h
  | case4 rest hrest ih =>
    rw [Bool.not_eq_true] at hrest
    refine ih (locate_of_append "." (hkept hrest) (by decide) rfl ?_)
    exact (ofList_reverse_append ['.'] rest) ▸ h
  | case5 cs => exact h

/-! ### Going on from a place -/

/-- Going on from paths to the same place leads to the same. -/
theorem get_join_eq (hp : fs.locate p = .ok place) (hq : fs.locate q = .ok place)
    (hn : isPath ⟨n⟩ = true) (hstart : Text.hasStart "/" n = false) :
    fs.get (p.join n) = fs.get (q.join n) := by
  rw [get, get, locate_join hp hn hstart, locate_join hq hn hstart]

/-! ### Spellings of a name -/

/-- The pieces of a path whose only step is an entry: the entry, and pieces that say nothing. -/
theorem exists_pieces_of_plainName? {name : String} (h : Path.plainName? name = some n) :
    Text.hasStart "/" name = false ∧ ofPiece? n = some (.entry n) ∧
      ∃ rest, Text.split '/' name = n :: rest ∧ rest.filterMap ofPiece? = [] := by
  have hcomponents : (Path.mk name).components = [.entry n] := by
    rw [Path.plainName?] at h
    split at h
    · rename_i hm
      rw [hm, Option.some.inj h]
    · cases h
  rw [components_eq] at hcomponents
  have hname : name ≠ "" := by
    rintro rfl
    cases hcomponents
  rcases Text.split_cases hname with ⟨hstart, -⟩ | ⟨hstart, piece, rest, hsplit, hpiece⟩
  · rw [if_pos (show (Path.mk name).isAbsolute = true from hstart)] at hcomponents
    cases hcomponents
  · rw [if_neg (show ¬(Path.mk name).isAbsolute = true by simp [Path.isAbsolute, hstart]),
      hsplit] at hcomponents
    split at hcomponents
    · cases hcomponents
    · rename_i hdot
      -- so the first piece says something, and it is all that is said
      have hentry : ∃ c, ofPiece? piece = some c := by
        unfold ofPiece?
        split <;> simp_all
      obtain ⟨c, hc⟩ := hentry
      rw [List.nil_append, List.filterMap_cons, hc, List.cons.injEq] at hcomponents
      obtain ⟨rfl, hrest⟩ := hcomponents
      have hn : piece = n := ofPiece?_eq_entry hc
      subst hn
      exact ⟨hstart, hc, rest, hsplit, hrest⟩

theorem text_orHere_ne_empty (p : Path) : p.orHere.text ≠ "" := by
  rw [Path.orHere]
  split
  · decide
  · rename_i hp
    simpa using hp

/-- The empty path goes on with a name from the working directory, as `.` does. -/
theorem locate_orHere_join {name : String} (hname : Path.plainName? name = some n)
    (h : fs.locate (p.join name) = .ok place) : fs.locate (p.orHere.join name) = .ok place := by
  cases hp : p.text.isEmpty with
  | false => rwa [Path.orHere, if_neg (by simp [hp])]
  | true =>
    obtain ⟨hstart, hentry, rest, hsplit, -⟩ := exists_pieces_of_plainName? hname
    rw [show p.join name = ⟨name⟩ by rw [Path.join, hp, Bool.or_true, if_pos rfl]] at h
    have hpath : isPath ⟨name⟩ = true := isPath_of_locate h
    rw [locate_of_split (exists_of_locate h).1 hpath hsplit, if_neg (ne_of_entry hentry).1] at h
    have hhere : fs.locate ⟨"."⟩ = .ok fs.working := by
      have hfirst := h
      rw [List.foldlM_cons] at hfirst
      obtain ⟨next, hnext, -⟩ := Except.bind_eq_ok_iff.mp hfirst
      obtain ⟨entries, hdir⟩ := exists_dir_of_step hnext
      have hstep : fs.step fs.working "." = .ok fs.working := by
        rw [step, hdir]
        rfl
      rw [locate_of_split (by decide) (by decide) (show Text.split '/' "." = ["."] by decide),
        if_neg (by decide)]
      exact (congrArg (· >>= fun s => pure s) hstep :)
    rw [Path.orHere, if_pos hp, locate_join hhere hpath hstart, hsplit, h]

/-- A path that goes on with the name of an entry leads to the entry, however the name is
spelled. -/
theorem exists_of_locate_plainName {name : String} (hp : p.text ≠ "")
    (hname : Path.plainName? name = some n) (h : fs.locate (p.join name) = .ok place) :
    ∃ above entries, fs.locate p = .ok above ∧ fs.tree.get? above = some (.dir entries) ∧
      (NameMap.lookup n entries).isSome = true ∧ fs.locate (p.join n) = .ok place := by
  obtain ⟨hstart, hentry, rest, hsplit, hrest⟩ := exists_pieces_of_plainName? hname
  obtain ⟨above, entries, habove, hdir, hfold⟩ := locate_of_join hp hstart h
  rw [hsplit, List.foldlM_cons] at hfold
  obtain ⟨next, hnext, hfold⟩ := Except.bind_eq_ok_iff.mp hfold
  have hplace : place = next := by
    rw [foldlM_step_eq hfold, hrest]
    rfl
  subst hplace
  have hpiece : IsPiece n := by
    obtain ⟨first, pieces, hjoined, -⟩ := exists_pieces_of_join hp hstart
    refine isPiece_of_mem_split (isPath_of_locate h) ?_
    rw [hjoined, hsplit]
    exact List.mem_cons_of_mem _ (List.mem_append_right _ (List.mem_cons_self ..))
  have hpath : isPath ⟨n⟩ = true := by simpa [isPath] using hpiece.2
  refine ⟨above, entries, habove, hdir, ?_, ?_⟩
  · obtain ⟨hempty, hdot, hup⟩ := ne_of_entry hentry
    simp only [step, hdir, if_neg (not_or.mpr ⟨hempty, hdot⟩), if_neg hup] at hnext
    split at hnext
    · cases hnext
    · split at hnext
      · assumption
      · cases hnext
  · rw [locate_join habove hpath (Text.hasStart_eq_false hpiece.1),
      Text.split_eq_singleton hpiece.1]
    exact (congrArg (· >>= fun s => pure s) hnext :)

end Files

end Cookbook
