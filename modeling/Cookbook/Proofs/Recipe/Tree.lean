import Cookbook.Proofs.Except
import Cookbook.Proofs.Files
import Cookbook.Proofs.Recipe.Loading
import Cookbook.Recipe.Tree

/-!
# What is in the tree of a recipe

A tree has below each recipe those that it lists, and nothing else. That holds also for a tree that
was complete before and is taken over: it is looked up by the steps of the directory, and directories
with the same steps are the same place, where the same recipe is loaded.

## Main definitions

* `Application.Lists`: a recipe lists another under a name.
* `Application.Grown`: a tree in which everything was loaded because it is listed.

## Main results

* `Application.grown_of_resolve`: the tree of a recipe.
* `Application.exists_load_of_executionOrder`: whatever is applied was loaded.
-/

namespace Cookbook

namespace Discovery

variable {fs : Files} {d : Discovery} {name : String} {dir : Path}

/-- There is a manifest in a directory that is found. -/
def Found (fs : Files) (dir : Path) : Prop :=
  dir.text ≠ "" ∧ fs.isFile (manifestFile dir) = true

theorem ne_empty_of_plainName? (h : (Path.plainName? name).isSome = true) : name ≠ "" := by
  rintro rfl
  revert h
  decide

/-- What is found is one of the places to look, with the name behind it. -/
theorem exists_join_of_find (h : d.find fs name = .ok dir) :
    (Path.plainName? name).isSome = true ∧ fs.isFile (manifestFile dir) = true ∧
      ∃ p ∈ d.searchPaths, dir = p.join name := by
  rw [find] at h
  split at h
  · rename_i found hfound
    cases h
    split at hfound
    · rename_i hplain
      have hmanifest := List.find?_some hfound
      obtain ⟨p, hplace, hp⟩ := List.mem_map.mp (List.mem_of_find?_eq_some hfound)
      exact ⟨hplain, hmanifest, p, hplace, hp.symm⟩
    · cases hfound
  · cases h

theorem found_of_find (h : d.find fs name = .ok dir) : Found fs dir := by
  obtain ⟨hplain, hmanifest, p, -, rfl⟩ := exists_join_of_find h
  exact ⟨fun hempty => ne_empty_of_plainName? hplain (Path.eq_empty_of_join hempty), hmanifest⟩

theorem notFound_of_find {e : Error} (h : d.find fs name = .error e) :
    ∃ searchPaths, e = .recipeNotFound name searchPaths := by
  unfold find at h
  dsimp only at h
  split at h
  · cases h
  · cases h
    exact ⟨_, rfl⟩

/-- A directory that is found is a directory. -/
theorem Found.exists_locate (h : Found fs dir) : ∃ place entries, fs.locate dir = .ok place ∧
    fs.tree.get? place = some (.dir entries) := by
  have hfile := h.2
  rw [Files.isFile] at hfile
  split at hfile
  · rename_i t hget
    obtain ⟨names, hlocate, -⟩ := Except.bind_eq_ok_iff.mp hget
    obtain ⟨place, entries, hplace, hdir, -⟩ := Files.locate_of_join h.1 (by decide) hlocate
    exact ⟨place, entries, hplace, hdir⟩
  · cases hfile

/-- The path of a directory that is found is the path of its place. -/
theorem Found.recipePath_eq (h : Found fs dir) : ∃ place ∈ fs.directories,
    fs.locate dir = .ok place ∧ Application.recipePath fs dir = Files.absolute place := by
  obtain ⟨place, entries, hlocate, hdir⟩ := h.exists_locate
  refine ⟨place, Files.mem_directories hdir, hlocate, ?_⟩
  rw [Application.recipePath, Files.canonical, hlocate]
  rfl

end Discovery

namespace Application

variable {fs : Files} {active : Storage} {a : Application}

/-- Directories with the same steps hold the same recipe. -/
theorem load_eq_of_same {dir dir' : Path} (h : Discovery.Found fs dir)
    (h' : Discovery.Found fs dir') (hsame : dir.same dir' = true) :
    a.load fs active dir = a.load fs active dir' := by
  obtain ⟨place, -, hplace, hpath⟩ := h.recipePath_eq
  obtain ⟨place', -, hplace', hpath'⟩ := h'.recipePath_eq
  have heq : recipePath fs dir = recipePath fs dir' := by
    rw [hpath, hpath', Files.eq_of_same hsame hplace hplace']
  rw [load, load, heq]

/-- A recipe lists another under a name: it is found and can be loaded. -/
def Lists (fs : Files) (active : Storage) (a : Application) (name : String) (r r' : Recipe) :
    Prop :=
  name ∈ r.recipes ∧ ∃ dir, (a.discovery r.path).find fs name = .ok dir ∧
    a.load fs active dir = .ok r'

theorem Lists.unique {name : String} {r r₁ r₂ : Recipe} (h₁ : a.Lists fs active name r r₁)
    (h₂ : a.Lists fs active name r r₂) : r₁ = r₂ := by
  obtain ⟨-, dir, hdir, hload⟩ := h₁
  obtain ⟨-, dir', hdir', hload'⟩ := h₂
  cases hdir.symm.trans hdir'
  exact Except.ok.inj (hload.symm.trans hload')

/-- A tree in which below each recipe there are those it lists, and nothing else. -/
inductive Grown (fs : Files) (active : Storage) (a : Application) : RecipeTree → Prop where
  /-- A recipe with the trees of those it lists. -/
  | node {r : Recipe} {ts : List RecipeTree}
    (hall : ∀ name ∈ r.recipes, ∃ t ∈ ts, a.Lists fs active name r t.recipe)
    (honly : ∀ t ∈ ts, ∃ name, a.Lists fs active name r t.recipe)
    (hbelow : ∀ t ∈ ts, Grown fs active a t) : Grown fs active a (.node r ts)

/-- Complete trees, each under the directory its recipe was loaded from. -/
def Complete (fs : Files) (active : Storage) (a : Application) (built : BuiltTrees) : Prop :=
  ∀ e ∈ built, Discovery.Found fs e.1 ∧ a.load fs active e.1 = .ok e.2.recipe ∧
    a.Grown fs active e.2

theorem Complete.get? {built : BuiltTrees} (h : a.Complete fs active built) {dir : Path}
    {t : RecipeTree} (hdir : Discovery.Found fs dir) (ht : built.get? dir = some t) :
    a.load fs active dir = .ok t.recipe ∧ a.Grown fs active t := by
  rw [BuiltTrees.get?, Option.map_eq_some_iff] at ht
  obtain ⟨e, hfind, rfl⟩ := ht
  obtain ⟨hfound, hload, hgrown⟩ := h e (List.mem_of_find?_eq_some hfind)
  have hsame : e.1.same dir = true := List.find?_some (p := fun e : Path × RecipeTree => e.1.same dir) hfind
  rw [← load_eq_of_same hfound hdir hsame]
  exact ⟨hload, hgrown⟩

/-- One more of the recipes that a recipe lists: `path` has the ids on the way to the recipe, itself
included. -/
def grow (fs : Files) (active : Storage) (a : Application) (fuel : Nat) (path : List String)
    (r : Recipe) (found : List RecipeTree × BuiltTrees) (name : String) :
    Except Error (List RecipeTree × BuiltTrees) := do
  if path.contains name then throw (.circularDependency (RecipeOrder.circle path name))
  let dir ← (a.discovery r.path).find fs name
  match found.2.get? dir with
  | some t => return (found.1 ++ [t], found.2)
  | none =>
    let (t, built) ← build fs active a fuel path found.2 (← a.load fs active dir)
    return (found.1 ++ [t], (dir, t) :: built)

theorem build_succ (fuel : Nat) (path : List String) (built : BuiltTrees) (r : Recipe) :
    a.build fs active (fuel + 1) path built r = (do
      let (ts, built) ← r.recipes.foldlM (a.grow fs active fuel (path ++ [r.id]) r) ([], built)
      return (.node r ts, built)) :=
  rfl

/-- The way to more below a recipe is closed by an id on it. -/
theorem grow_of_mem {fuel : Nat} {path : List String} {found : List RecipeTree × BuiltTrees}
    {r : Recipe} {name : String} (h : name ∈ path) : a.grow fs active fuel path r found name
      = .error (.circularDependency (RecipeOrder.circle path name)) := by
  have hcontains : path.contains name = true := by simpa using h
  rw [grow, hcontains]
  rfl

theorem grow_of_not_found {fuel : Nat} {path : List String}
    {found : List RecipeTree × BuiltTrees} {r : Recipe} {name : String} {e : Error}
    (hnew : name ∉ path) (hdir : (a.discovery r.path).find fs name = .error e) :
    a.grow fs active fuel path r found name = .error e := by
  have hcontains : path.contains name = false := by simpa using hnew
  rw [grow, hcontains, hdir]
  rfl

/-- What is listed and found is taken over if it is complete; otherwise it is loaded and built. -/
theorem grow_of_find {fuel : Nat} {path : List String} {found : List RecipeTree × BuiltTrees}
    {r : Recipe} {name : String} {dir : Path} (hnew : name ∉ path)
    (hdir : (a.discovery r.path).find fs name = .ok dir) :
    a.grow fs active fuel path r found name = match found.2.get? dir with
      | some t => .ok (found.1 ++ [t], found.2)
      | none => a.load fs active dir >>= fun r' =>
        (a.build fs active fuel path found.2 r').map fun result =>
          (found.1 ++ [result.1], (dir, result.1) :: result.2) := by
  have hcontains : path.contains name = false := by simpa using hnew
  rw [grow, hcontains, hdir]
  show (match found.2.get? dir with
    | some t => Except.ok (found.1 ++ [t], found.2)
    | none => _) = _
  split
  · rfl
  · cases a.load fs active dir with
    | error e => rfl
    | ok r' =>
      show (a.build fs active fuel path found.2 r' >>= _) = Except.map _ _
      cases a.build fs active fuel path found.2 r' <;> rfl

/-- The ways in which one more of the recipes that are listed is there. -/
theorem grow_eq_ok {fuel : Nat} {path : List String} {r : Recipe}
    {found found' : List RecipeTree × BuiltTrees} {name : String}
    (h : a.grow fs active fuel path r found name = .ok found') :
    ∃ dir, (a.discovery r.path).find fs name = .ok dir ∧
      ((∃ t, found.2.get? dir = some t ∧ found' = (found.1 ++ [t], found.2)) ∨
        ∃ r' t built, a.load fs active dir = .ok r' ∧
          a.build fs active fuel path found.2 r' = .ok (t, built) ∧
          found' = (found.1 ++ [t], (dir, t) :: built)) := by
  unfold grow at h
  split at h
  · cases h
  obtain ⟨dir, hdir, h⟩ := Except.bind_eq_ok_iff.mp h
  refine ⟨dir, hdir, ?_⟩
  split at h
  · rename_i t ht
    cases h
    exact .inl ⟨t, ht, rfl⟩
  · obtain ⟨r', hload, h⟩ := Except.bind_eq_ok_iff.mp h
    obtain ⟨⟨t, built⟩, hbuild, h⟩ := Except.bind_eq_ok_iff.mp h
    cases h
    exact .inr ⟨r', t, built, hload, hbuild, rfl⟩

theorem grown_of_build {fuel : Nat} {path : List String} {built built' : BuiltTrees} {r : Recipe}
    {t : RecipeTree} (hbuilt : a.Complete fs active built)
    (h : a.build fs active fuel path built r = .ok (t, built')) :
    t.recipe = r ∧ a.Grown fs active t ∧ a.Complete fs active built' := by
  induction fuel generalizing path built built' r t with
  | zero => cases h
  | succ fuel ih =>
    rw [build_succ] at h
    obtain ⟨⟨ts, built₁⟩, hfold, h⟩ := Except.bind_eq_ok_iff.mp h
    cases h
    let P (found : List RecipeTree × BuiltTrees) : Prop :=
      (∀ t ∈ found.1, (∃ name, a.Lists fs active name r t.recipe) ∧ a.Grown fs active t) ∧
        a.Complete fs active found.2
    let D (name : String) (found : List RecipeTree × BuiltTrees) : Prop :=
      ∃ t ∈ found.1, a.Lists fs active name r t.recipe
    have hadd : ∀ {found : List RecipeTree × BuiltTrees} {name : String} {t : RecipeTree}
        {built' : BuiltTrees}, P found → a.Lists fs active name r t.recipe →
        a.Grown fs active t → a.Complete fs active built' → P (found.1 ++ [t], built') ∧
          D name (found.1 ++ [t], built') ∧
          ∀ name', D name' found → D name' (found.1 ++ [t], built') := by
      intro found name t built' hfound hlists hgrown hcomplete
      have hlast : t ∈ found.1 ++ [t] := List.mem_append_right _ (List.mem_singleton_self t)
      refine ⟨⟨fun u hu => ?_, hcomplete⟩, ⟨t, hlast, hlists⟩, ?_⟩
      · rcases List.mem_append.mp hu with hu | hu
        · exact hfound.1 u hu
        · rw [List.mem_singleton.mp hu]
          exact ⟨⟨name, hlists⟩, hgrown⟩
      · rintro name' ⟨u, hu, hlists'⟩
        exact ⟨u, List.mem_append_left _ hu, hlists'⟩
    have hstep : ∀ found, P found → ∀ name ∈ r.recipes, ∀ found',
        a.grow fs active fuel (path ++ [r.id]) r found name = .ok found' →
          P found' ∧ D name found' ∧ ∀ name', D name' found → D name' found' := by
      intro found hfound name hname found' h
      obtain ⟨dir, hdir, ⟨u, hu, rfl⟩ | ⟨r', u, built₂, hload, hu, rfl⟩⟩ := grow_eq_ok h
      · obtain ⟨hload, hgrown⟩ := hfound.2.get? (Discovery.found_of_find hdir) hu
        exact hadd hfound ⟨hname, dir, hdir, hload⟩ hgrown hfound.2
      · obtain ⟨hrecipe, hgrown, hcomplete⟩ := ih hfound.2 hu
        rw [← hrecipe] at hload
        refine hadd hfound ⟨hname, dir, hdir, hload⟩ hgrown (List.forall_mem_cons.mpr ⟨?_, hcomplete⟩)
        exact ⟨Discovery.found_of_find hdir, hload, hgrown⟩
    obtain ⟨⟨hts, hcomplete⟩, hall, -⟩ := Except.foldlM_brings hstep ⟨by simp, hbuilt⟩ hfold
    exact ⟨rfl, .node hall (fun t ht => (hts t ht).1) fun t ht => (hts t ht).2, hcomplete⟩

/-- The tree of the recipe in a directory. -/
theorem grown_of_resolve {dir : Path} {t : RecipeTree} (h : a.resolve fs active dir = .ok t) :
    a.load fs active dir = .ok t.recipe ∧ a.Grown fs active t := by
  obtain ⟨r, hload, h⟩ := Except.bind_eq_ok_iff.mp h
  obtain ⟨⟨u, built⟩, hbuild, h⟩ := Except.bind_eq_ok_iff.mp h
  cases h
  have hnone : a.Complete fs active [] := by
    rintro e ⟨⟩
  obtain ⟨hrecipe, hgrown, -⟩ := grown_of_build hnone hbuild
  rw [hrecipe]
  exact ⟨hload, hgrown⟩

/-! ### The recipes of a tree -/

mutual

/-- A property of the recipe of a tree that goes over to those it lists is one of all that are
applied. -/
theorem forall_mem_addTo {P : Recipe → Prop}
    (hP : ∀ {name r r'}, a.Lists fs active name r r' → P r') :
    ∀ {t : RecipeTree} {listed : List Recipe}, a.Grown fs active t → P t.recipe →
      (∀ r ∈ listed, P r) → ∀ r ∈ t.addTo listed, P r
  | .node r ts, listed, .node hall honly hbelow, hr, hlisted => by
    rw [RecipeTree.addTo]
    split
    · exact hlisted
    · intro x hx
      rcases List.mem_append.mp hx with hx | hx
      · refine forall_mem_addAll hP hbelow (fun t ht => ?_) hlisted x hx
        obtain ⟨name, hlists⟩ := honly t ht
        exact hP hlists
      · rw [List.mem_singleton.mp hx]
        exact hr

theorem forall_mem_addAll {P : Recipe → Prop}
    (hP : ∀ {name r r'}, a.Lists fs active name r r' → P r') :
    ∀ {ts : List RecipeTree} {listed : List Recipe}, (∀ t ∈ ts, a.Grown fs active t) →
      (∀ t ∈ ts, P t.recipe) → (∀ r ∈ listed, P r) → ∀ r ∈ RecipeTree.addAll listed ts, P r
  | [], listed, _, _, hlisted => hlisted
  | t :: ts, listed, hgrown, hts, hlisted => by
    rw [RecipeTree.addAll]
    refine forall_mem_addAll hP (fun u hu => hgrown u (List.mem_cons_of_mem _ hu))
      (fun u hu => hts u (List.mem_cons_of_mem _ hu)) ?_
    exact forall_mem_addTo hP (hgrown t (List.mem_cons_self ..)) (hts t (List.mem_cons_self ..))
      hlisted

end

/-- Whatever is applied was loaded. -/
theorem exists_load_of_executionOrder {dir : Path} {t : RecipeTree}
    (h : a.resolve fs active dir = .ok t) {r : Recipe} (hr : r ∈ t.executionOrder) :
    ∃ dir, a.load fs active dir = .ok r := by
  obtain ⟨hload, hgrown⟩ := grown_of_resolve h
  refine forall_mem_addTo (P := fun r => ∃ dir, a.load fs active dir = .ok r) ?_ hgrown
    ⟨dir, hload⟩ (by simp) r hr
  rintro name r r' ⟨-, dir, -, hload⟩
  exact ⟨dir, hload⟩

end Application

end Cookbook
