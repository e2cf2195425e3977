import Cookbook.Proofs.Files.Places
import Cookbook.Proofs.Recipe.Installed
import Cookbook.Proofs.Recipe.Order
import Mathlib.Data.List.Dedup

/-!
# Recipes in one directory

For recipes that lie beside each other and need none but each other, directories can be left out:
each is found by the others under its own name, whatever other places there are to look. Then the
tree of a recipe and the order by names are the same walk. Going down, the names on the way are the
ids on it, so a circle is noticed at the same name. Coming back, the trees that are complete are
those of the names that are listed, the last one first; so a tree is taken over just if its name is
skipped. And what a tree adds to a list of recipes is what the walk that built it added to the
names.

The last is what a walk over a tree needs that was built earlier: it adds nothing, as its root is
listed.

## Main definitions

* `Application.Siblings`: recipes that lie in one directory and need none but each other.
* `Application.IsSibling`: one of them, and where it finds the others.
* `Application.Follows`: trees that were built while names were listed.

## Main results

* `Application.Siblings.exists_isSibling`: siblings find each other.
* `Application.alike_build`: building a tree and listing names go alike.
* `Application.order_of_siblings`: a recipe and its name have the same order.
-/

namespace Cookbook

namespace Files

variable {fs : Files} {p : Path} {n : String}

/-- A name that is a plain name as it stands is a step of a path. -/
theorem entry_of_plainName? (h : Path.plainName? n = some n) :
    '/' ∉ n.toList ∧ ofPiece? n = some (.entry n) := by
  obtain ⟨-, hentry, rest, hsplit, -⟩ := exists_pieces_of_plainName? h
  refine ⟨Text.not_mem_of_mem_split (s := n) ?_, hentry⟩
  rw [hsplit]
  exact List.mem_cons_self ..

theorem isAbsolute_join (hn : '/' ∉ n.toList) (h : p.isAbsolute = true) :
    (p.join n).isAbsolute = true := by
  obtain ⟨rest, hrest⟩ := Option.isSome_iff_exists.mp h
  have htext : p.text.toList = '/' :: rest := Text.dropStart?_eq_some_iff.mp hrest
  have hempty : p.text.isEmpty = false := by
    rw [String.isEmpty_eq_false_iff]
    rintro hempty
    rw [hempty] at htext
    cases htext
  rw [Path.join, Text.hasStart_eq_false hn, hempty, Bool.or_false, if_neg Bool.false_ne_true]
  split <;> simp [Path.isAbsolute, Text.hasStart, Text.dropStart?, htext]

/-- Going on from the path of a directory to a steady place in it. -/
theorem Steady.locate_join {place : List String} {entries : List (String × FileTree)}
    (h : Steady fs (place ++ [n])) (htop : fs.tree = .dir entries) :
    fs.locate ((absolute place).join n) = .ok (place ++ [n]) := by
  obtain ⟨hn, hnul⟩ := h.pieces n List.mem_concat_self
  obtain ⟨hplace, -⟩ := h.of_concat
  have hpath : Files.isPath ⟨n⟩ = true := by simpa [Files.isPath] using hnul
  have hleads := h.leads
  rw [List.foldlM_append, hplace.leads] at hleads
  rw [Files.locate_join (hplace.locate htop) hpath (Text.hasStart_eq_false hn),
    Text.split_eq_singleton hn]
  exact hleads

end Files

namespace Discovery

variable {fs : Files} {d : Discovery} {p : Path} {ps : List Path} {name : String}

/-- The first of some places is looked at first. -/
theorem exists_searchPaths_ofPaths (p : Path) (ps : List Path) :
    ∃ rest, (ofPaths (p :: ps)).searchPaths = p :: rest := by
  have hadd : ∀ (ps found : List Path), ∃ rest,
      ps.foldl (fun found p => if found.any p.same then found else found ++ [p]) (p :: found)
        = p :: rest := by
    intro ps
    induction ps with
    | nil => exact fun found => ⟨found, rfl⟩
    | cons q ps ih =>
      intro found
      rw [List.foldl_cons]
      split
      · exact ih found
      · exact ih (found ++ [q])
  exact hadd ps []

/-- A recipe in the first place is found there. -/
theorem find_of_isFile (hplaces : d.searchPaths = p :: ps)
    (hplain : (Path.plainName? name).isSome = true)
    (hfile : fs.isFile (manifestFile (p.join name)) = true) :
    d.find fs name = .ok (p.join name) := by
  rw [find, hplain, if_pos rfl, hplaces, List.map_cons, List.find?_cons, hfile]

end Discovery

namespace RecipeTree

theorem addAll_append (listed : List Recipe) (ts us : List RecipeTree) :
    addAll listed (ts ++ us) = addAll (addAll listed ts) us := by
  induction ts generalizing listed with
  | nil => rfl
  | cons t ts ih => exact ih (addTo listed t)

end RecipeTree

namespace Application

variable {fs : Files} {active : Storage} {a : Application} {dir : Path} {names : List String}
  {n m root : String} {r r' : Recipe}

/-- Recipes that all lie in one directory. Each can be loaded, and all that it lists is the plain
name of one of them. -/
structure Siblings (fs : Files) (active : Storage) (a : Application) (dir : Path)
    (names : List String) : Prop where
  plain : ∀ n ∈ names, Path.plainName? n = some n
  loads : ∀ n ∈ names, ∃ r, a.load fs active (dir.join n) = .ok r ∧ r.recipes ⊆ names

/-! ### Siblings find each other -/

/-- The place that the steps of a path say. -/
def placeOf (fs : Files) (dir : Path) : List String :=
  dir.components.foldl Path.Component.move fs.working

/-- Where a recipe is found by those beside it. -/
def home (fs : Files) (dir : Path) (n : String) : Path := (Files.absolute (placeOf fs dir)).join n

/-- A recipe with a name that is found in one place by all that are there, and finds them. -/
structure IsSibling (fs : Files) (active : Storage) (a : Application) (dir : Path)
    (names : List String) (n : String) (r : Recipe) : Prop where
  mem : n ∈ names
  locate : fs.locate (home fs dir n) = .ok (placeOf fs dir ++ [n])
  load : a.load fs active (home fs dir n) = .ok r
  id_eq : r.id = n
  lists : r.recipes ⊆ names
  finds : ∀ m ∈ names, (a.discovery r.path).find fs m = .ok (home fs dir m)

/-- Names of different recipes lead to different directories. -/
theorem IsSibling.eq_of_same (h : IsSibling fs active a dir names n r)
    (h' : IsSibling fs active a dir names m r')
    (hsame : (home fs dir n).same (home fs dir m) = true) : n = m := by
  have hplaces := Files.eq_of_same hsame h.locate h'.locate
  simpa using hplaces

/-- A sibling is in the directory of its name. -/
theorem Siblings.exists_steady (h : a.Siblings fs active dir names)
    (hstart : dir.isAbsolute = true ∨ fs.locate (Files.absolute fs.working) = .ok fs.working)
    (hn : n ∈ names) : ∃ r, a.load fs active (dir.join n) = .ok r ∧ r.recipes ⊆ names ∧
      r.path = Files.absolute (placeOf fs dir ++ [n]) ∧ Files.Steady fs (placeOf fs dir ++ [n]) ∧
      ∃ entries, fs.tree = .dir entries := by
  obtain ⟨r, hload, hlists⟩ := h.loads n hn
  obtain ⟨hslash, hentry⟩ := Files.entry_of_plainName? (h.plain n hn)
  have hne : (dir.join n).text ≠ "" := fun hempty =>
    (Files.ne_of_entry hentry).1 (Path.eq_empty_of_join hempty)
  obtain ⟨place, hlocate, hpath⟩ := exists_locate_of_load hne hload
  have hsteady : Files.Steady fs place := by
    refine Files.steady_of_locate (hstart.imp (Files.isAbsolute_join hslash) fun hworking => ?_)
      hlocate
    exact Files.steady_of_locate (.inl (Files.isAbsolute_absolute _)) hworking
  rw [Files.eq_of_locate_join hslash hentry hlocate] at hpath hsteady
  exact ⟨r, hload, hlists, hpath, hsteady, Files.exists_dir_of_locate hlocate⟩

/-- Siblings are found by each other, whatever other places there are to look. -/
theorem Siblings.exists_isSibling (h : a.Siblings fs active dir names)
    (hstart : dir.isAbsolute = true ∨ fs.locate (Files.absolute fs.working) = .ok fs.working)
    (hn : n ∈ names) :
    ∃ r, a.load fs active (dir.join n) = .ok r ∧ IsSibling fs active a dir names n r := by
  obtain ⟨r, hload, hlists, hpath, hsteady, entries, htop⟩ := h.exists_steady hstart hn
  obtain ⟨hslash, hentry⟩ := Files.entry_of_plainName? (h.plain n hn)
  have hhome := hsteady.locate_join htop
  have hcanonical : recipePath fs (home fs dir n) = recipePath fs (dir.join n) := by
    rw [← (eq_of_load hload).1, hpath, recipePath, Files.canonical, home, hhome]
    rfl
  refine ⟨r, hload, hn, hhome, (load_congr hcanonical).trans hload, ?_, hlists, fun m hm => ?_⟩
  · rw [(eq_of_load hload).2, ← (eq_of_load hload).1, hpath, Files.fileName?_absolute hslash hentry]
    rfl
  · obtain ⟨r', hload', -, hpath', hsteady', -⟩ := h.exists_steady hstart hm
    have hget : fs.get (Discovery.manifestFile (home fs dir m))
        = fs.get (Discovery.manifestFile (Files.absolute (placeOf fs dir ++ [m]))) :=
      Files.get_join_eq (hsteady'.locate_join htop) (hsteady'.locate htop) (by decide) (by decide)
    have hfile := isFile_of_load hload'
    rw [Recipe.manifestFile, hpath', Files.isFile, ← hget, ← Files.isFile] at hfile
    -- the directory they are all in is the first place to look
    obtain ⟨rest, hplaces⟩ := Discovery.exists_searchPaths_ofPaths
      (Files.absolute (placeOf fs dir)) (Discovery.places.map a.root.join)
    have hfirst : (a.discovery r.path).searchPaths = Files.absolute (placeOf fs dir) :: rest := by
      rw [discovery, Discovery.forRecipe, hpath, hsteady.parent?]
      exact hplaces
    exact Discovery.find_of_isFile hfirst (by rw [h.plain m hm]; rfl) hfile

/-! ### Trees that are built while names are listed -/

/-- Trees that are complete while names are listed: each tree is that of a name, under the place
where the name is found, and the names are in the order in which they were complete. The trees that
are at hand add to recipes with ids that were listed before what has been listed since. -/
structure Follows (fs : Files) (dir : Path) (names start : List String) (ts : List RecipeTree)
    (built : BuiltTrees) (order : List String) : Prop where
  ids : (built.map (·.2.recipe.id)).reverse = order
  homes : ∀ e ∈ built, e.2.recipe.id ∈ names ∧ e.1 = home fs dir e.2.recipe.id
  adds : ∀ listed : List Recipe, listed.map (·.id) = start →
    (RecipeTree.addAll listed ts).map (·.id) = order

namespace Follows

variable {start order order' : List String} {ts : List RecipeTree} {t : RecipeTree}
  {built built' : BuiltTrees}

theorem nil : Follows fs dir names [] [] [] [] where
  ids := rfl
  homes e he := by cases he
  adds _ hlisted := hlisted

/-- What is complete stays so when one begins anew. -/
theorem again (h : Follows fs dir names start ts built order) :
    Follows fs dir names order [] built order where
  ids := h.ids
  homes := h.homes
  adds _ hlisted := hlisted

/-- A tree that is found complete is that of a name which is listed. -/
theorem id_of_get? (h : Follows fs dir names start ts built order)
    (hall : ∀ n ∈ names, ∃ r, IsSibling fs active a dir names n r) (hn : n ∈ names)
    (ht : built.get? (home fs dir n) = some t) : t.recipe.id = n ∧ n ∈ order := by
  rw [BuiltTrees.get?, Option.map_eq_some_iff] at ht
  obtain ⟨e, hfind, rfl⟩ := ht
  have he : e ∈ built := List.mem_of_find?_eq_some hfind
  have hsame : e.1.same (home fs dir n) = true :=
    List.find?_some (p := fun e : Path × RecipeTree => e.1.same (home fs dir n)) hfind
  obtain ⟨hmem, hhome⟩ := h.homes e he
  obtain ⟨r, hr⟩ := hall n hn
  obtain ⟨r', hr'⟩ := hall _ hmem
  have hid : e.2.recipe.id = n := hr'.eq_of_same hr (hhome ▸ hsame)
  refine ⟨hid, ?_⟩
  rw [← h.ids, List.mem_reverse, ← hid]
  exact List.mem_map_of_mem he

/-- A name without a complete tree is not listed. -/
theorem not_mem_of_get? (h : Follows fs dir names start ts built order)
    (ht : built.get? (home fs dir n) = none) : n ∉ order := by
  intro hn
  rw [← h.ids, List.mem_reverse, List.mem_map] at hn
  obtain ⟨e, he, rfl⟩ := hn
  rw [BuiltTrees.get?, Option.map_eq_none_iff, List.find?_eq_none] at ht
  exact ht e he (by rw [(h.homes e he).2, Path.same, beq_self_eq_true])

/-- The trees at hand grow by one that was built since. -/
theorem concat (h : Follows fs dir names start ts built order)
    (h' : Follows fs dir names order [t] built' order') :
    Follows fs dir names start (ts ++ [t]) built' order' where
  ids := h'.ids
  homes := h'.homes
  adds listed hlisted := by
    rw [RecipeTree.addAll_append]
    exact h'.adds _ (h.adds listed hlisted)

/-- A tree that was complete before adds nothing, as its root is listed. -/
theorem skip (h : Follows fs dir names start ts built order) (ht : t.recipe.id ∈ order) :
    Follows fs dir names start (ts ++ [t]) built order := by
  refine h.concat ⟨h.ids, h.homes, fun listed hlisted => ?_⟩
  cases t with
  | node r us =>
    have hlist : listed.any (·.id == r.id) = true := by
      rw [← hlisted] at ht
      simpa [RecipeTree.recipe] using ht
    rw [RecipeTree.addAll, RecipeTree.addTo, if_pos hlist, RecipeTree.addAll, hlisted]

/-- When all trees below a recipe are there, its own is complete. -/
theorem node (h : Follows fs dir names start ts built order) (hn : r.id ∈ names)
    (hnew : r.id ∉ start) : Follows fs dir names start [.node r ts]
      ((home fs dir r.id, .node r ts) :: built) (order ++ [r.id]) where
  ids := by rw [List.map_cons, List.reverse_cons, h.ids]; rfl
  homes := List.forall_mem_cons.mpr ⟨⟨hn, rfl⟩, h.homes⟩
  adds listed hlisted := by
    have hlist : ¬listed.any (·.id == r.id) = true := by
      rw [← hlisted] at hnew
      simpa using hnew
    rw [RecipeTree.addAll, RecipeTree.addTo, if_neg hlist, RecipeTree.addAll, List.map_append,
      h.adds listed hlisted]
    rfl

end Follows

/-! ### Building and listing -/

/-- There are no more names on a way than there are names. -/
theorem length_le_dedup {path : List String} (hpath : path.Nodup) (hsub : path ⊆ names) :
    path.length ≤ names.dedup.length :=
  hpath.length_le_of_subset fun _ hx => List.mem_dedup.mpr (hsub hx)

section Alike

variable {needs : String → Except Error (List String)}
  (hall : ∀ n ∈ names, ∃ r, IsSibling fs active a dir names n r)
  (hneeds : ∀ n r, IsSibling fs active a dir names n r → needs n = .ok r.recipes)
include hall hneeds

/-- From any trees that are complete while names are listed, building the tree of a sibling and
listing its name go alike, given room for every way that is left: they fail at the same circle, or
the tree is complete when the name is listed. -/
theorem alike_build {fuel fuel' : Nat} {path start order : List String} {ts : List RecipeTree}
    {built : BuiltTrees} (hroom : names.dedup.length < fuel + path.length)
    (hroom' : names.dedup.length < fuel' + path.length) (hpath : (path ++ [n]).Nodup)
    (hsub : path ++ [n] ⊆ names) (hr : IsSibling fs active a dir names n r) (hnew : n ∉ order)
    (h : Follows fs dir names start ts built order) :
    Except.Alike (fun e => ∃ cycle, e = Error.circularDependency cycle)
      (fun result order' => Follows fs dir names order [result.1]
        ((home fs dir n, result.1) :: result.2) order')
      (a.build fs active fuel path built r) (RecipeOrder.visit needs fuel' path order n) := by
  induction fuel generalizing fuel' path start order ts built n r with
  | zero =>
    have hlength := length_le_dedup hpath hsub
    rw [List.length_append] at hlength
    omega
  | succ fuel ih =>
    have hlength := length_le_dedup hpath hsub
    rw [List.length_append, List.length_singleton] at hlength
    obtain ⟨fuel', rfl⟩ : ∃ k, fuel' = k + 2 := ⟨fuel' - 2, by omega⟩
    have hway : n ∉ path := by
      intro hn
      exact (List.nodup_append.mp hpath).2.2 n hn n (List.mem_singleton_self n) rfl
    rw [build_succ, hr.id_eq, RecipeOrder.visit_of_needs hway hnew (hneeds n r hr)]
    refine Except.Alike.bind (R := fun found now => Follows fs dir names order found.1 found.2 now)
      (Except.Alike.foldlM (fun found now hfound m hm => ?_) h.again) fun found below hfound => ?_
    · have hm : m ∈ names := hr.lists hm
      by_cases hcircle : m ∈ path ++ [n]
      · rw [grow_of_mem hcircle, RecipeOrder.visit_of_mem_path hcircle]
        exact .error ⟨_, rfl⟩
      rw [grow_of_find hcircle (hr.finds m hm)]
      cases hget : found.2.get? (home fs dir m) with
      | some t =>
        obtain ⟨hid, hlisted⟩ := hfound.id_of_get? hall hm hget
        rw [RecipeOrder.visit_of_mem_order hcircle hlisted]
        exact .ok (hfound.skip (hid ▸ hlisted))
      | none =>
        obtain ⟨r', hr'⟩ := hall m hm
        have hpath' : (path ++ [n] ++ [m]).Nodup := by
          rw [← List.concat_eq_append]
          exact hpath.concat hcircle
        have hsub' : path ++ [n] ++ [m] ⊆ names :=
          List.append_subset.mpr ⟨hsub, List.cons_subset.mpr ⟨hm, List.nil_subset _⟩⟩
        rw [hr'.load]
        refine (ih ?_ ?_ hpath' hsub' hr' (hfound.not_mem_of_get? hget) hfound).map_left
          fun result now' hresult => hfound.concat hresult
        · rw [List.length_append, List.length_singleton]
          omega
        · rw [List.length_append, List.length_singleton]
          omega
    · rw [← hr.id_eq] at hnew ⊢
      exact .ok (hfound.node (hr.id_eq ▸ hr.mem) hnew)

omit hneeds in
/-- There are no more names than directories. -/
theorem length_dedup_lt : names.dedup.length < depthBound fs := by
  have hnodup : (names.dedup.map (placeOf fs dir ++ [·])).Nodup :=
    (List.nodup_dedup names).map fun x y hxy => by simpa using hxy
  have hsub : names.dedup.map (placeOf fs dir ++ [·]) ⊆ fs.directories := by
    intro place hplace
    obtain ⟨n, hn, rfl⟩ := List.mem_map.mp hplace
    obtain ⟨r, hr⟩ := hall n (List.mem_dedup.mp hn)
    obtain ⟨place, hplace, hlocate, -⟩ :=
      (Discovery.found_of_find (hr.finds n hr.mem)).recipePath_eq
    rw [hr.locate] at hlocate
    cases hlocate
    exact hplace
  have hlength := hnodup.length_le_of_subset hsub
  have hcount : fs.directories.length = directoryCount fs := by
    simp [Files.directories, directoryCount]
  rw [List.length_map, hcount] at hlength
  have hbound : directoryCount fs + 1 ≤ depthBound fs := Nat.le_mul_of_pos_right _ (by omega)
  omega

/-- The recipe of a sibling is resolved as its name is put in order. -/
theorem alike_resolve (hr : IsSibling fs active a dir names n r) {dir' : Path}
    (hload : a.load fs active dir' = .ok r) :
    Except.Alike (fun e => ∃ cycle, e = Error.circularDependency cycle)
      (fun t order => t.executionOrder.map (·.id) = order)
      (a.resolve fs active dir') (RecipeOrder.order names needs n) := by
  have hroom := length_dedup_lt hall
  have hroom' : names.dedup.length ≤ names.length := (List.dedup_sublist names).length_le
  rw [resolve_eq hload, RecipeOrder.order]
  refine (alike_build hall hneeds hroom ?_ (List.nodup_singleton n)
    (List.cons_subset.mpr ⟨hr.mem, List.nil_subset _⟩) hr List.not_mem_nil Follows.nil).map_left
    fun result order' hresult => hresult.adds [] rfl
  rw [List.length_nil]
  omega

end Alike

/-- The order of a recipe among siblings is the order of its name by what the names need; if there
is none, both fail with the same circle. The directory may be relative to a working directory that
is there. -/
theorem order_of_siblings (h : a.Siblings fs active dir names)
    (hstart : dir.isAbsolute = true ∨ fs.locate (Files.absolute fs.working) = .ok fs.working)
    {needs : String → Except Error (List String)}
    (hneeds : ∀ n ∈ names, ∀ r, a.load fs active (dir.join n) = .ok r → needs n = .ok r.recipes)
    (hroot : root ∈ names) :
    (a.resolve fs active (dir.join root)).map (fun t => t.executionOrder.map (·.id))
      = RecipeOrder.order names needs root ∧
    ∀ e, a.resolve fs active (dir.join root) = .error e →
      ∃ cycle, e = .circularDependency cycle := by
  have hall : ∀ n ∈ names, ∃ r, IsSibling fs active a dir names n r := fun n hn =>
    (h.exists_isSibling hstart hn).imp fun _ hr => hr.2
  have hneeds' : ∀ n r, IsSibling fs active a dir names n r → needs n = .ok r.recipes := by
    intro n r hr
    obtain ⟨r', hload, hr'⟩ := h.exists_isSibling hstart hr.mem
    cases hr.load.symm.trans hr'.load
    exact hneeds n hr.mem r hload
  obtain ⟨r, hload, hr⟩ := h.exists_isSibling hstart hroot
  have halike := alike_resolve hall hneeds' hr hload
  exact ⟨halike.map_eq fun _ _ heq => heq, halike.failsAs⟩

/-! ### An instance -/

/-- Recipes in the working directory that need each other as `RecipeOrder.sharing` says. There is a
recipe with the name of one of them where the application keeps recipes. -/
def besideEachOther : Files where
  working := ["site"]
  tree := .dir [
    ("recipes", .dir [
      ("base", .dir [("recipe.yml", .file (.text "name: O\nrecipes: [top]"))])]),
    ("site", .dir [
      ("again", .dir [("recipe.yml", .file (.text "name: A\nrecipes: [round]"))]),
      ("base", .dir [("recipe.yml", .file (.text "name: B"))]),
      ("left", .dir [("recipe.yml", .file (.text "name: L\nrecipes: [base]"))]),
      ("right", .dir [("recipe.yml", .file (.text "name: R\nrecipes: [base]"))]),
      ("round", .dir [("recipe.yml", .file (.text "name: R\nrecipes: [left, again]"))]),
      ("top", .dir [("recipe.yml", .file (.text "name: T\nrecipes: [left, right]"))])])]

/-- The names of the recipes. -/
def besideNames : List String := ["again", "base", "left", "right", "round", "top"]

theorem order_beside_each_other :
    plainApplication.Siblings besideEachOther .null ⟨"."⟩ besideNames ∧
    (plainApplication.resolve besideEachOther .null ⟨"./top"⟩).map
      (fun t => t.executionOrder.map (·.id)) = .ok ["base", "left", "right", "top"] ∧
    (plainApplication.resolve besideEachOther .null ⟨"./round"⟩).map
      (fun t => t.executionOrder.map (·.id))
        = .error (.circularDependency ["round", "again", "round"]) := by
  have hloads : ∀ n ∈ besideNames, ∃ r,
      plainApplication.load besideEachOther .null (Path.join ⟨"."⟩ n) = .ok r ∧
        r.recipes = RecipeOrder.sharing n := by
    decide +kernel
  have hclosed : ∀ n ∈ besideNames, RecipeOrder.sharing n ⊆ besideNames := by decide
  have hsiblings : plainApplication.Siblings besideEachOther .null ⟨"."⟩ besideNames := by
    refine ⟨by decide, fun n hn => ?_⟩
    obtain ⟨r, hload, hrecipes⟩ := hloads n hn
    exact ⟨r, hload, hrecipes ▸ hclosed n hn⟩
  have hneeds : ∀ n ∈ besideNames, ∀ r,
      plainApplication.load besideEachOther .null (Path.join ⟨"."⟩ n) = .ok r →
        Except.ok (RecipeOrder.sharing n) = (.ok r.recipes : Except Error (List String)) := by
    intro n hn r hload
    obtain ⟨r', hload', hrecipes⟩ := hloads n hn
    cases hload.symm.trans hload'
    rw [hrecipes]
  have hroot : ∀ root ∈ besideNames, _ := fun root hroot =>
    order_of_siblings hsiblings (.inr rfl) hneeds hroot
  exact ⟨hsiblings, (hroot "top" (by decide)).1, (hroot "round" (by decide)).1⟩

end Application

end Cookbook
