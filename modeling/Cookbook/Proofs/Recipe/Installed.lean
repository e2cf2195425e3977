import Cookbook.Proofs.Recipe.Gathering
import Cookbook.Proofs.Recipe.Nodes

/-!
# What recipes install, by name and in the tree

When the manifest of a recipe is checked, the extensions that will be there are those installed by
what it needs. They are gathered by name, and every name is looked for in the places of that one
recipe. In its tree each recipe below looks for names in places of its own, of which the directory
it is in comes first.

So the two can meet different recipes under a name. What is gathered is right if they do not: then
each name that leads on by names leads on in the tree, to the same recipe, and the other way round.

## Main definitions

* `Discovery.home?`: the directory of a recipe by name.
* `Application.FindsSame`: below a recipe, names are found where the recipe itself finds them.

## Main results

* `Application.installed_below_of_resolve`: what is gathered for a recipe in a tree.
-/

namespace Cookbook

open Relation (ReflTransGen TransGen)

namespace Discovery

variable {fs : Files} {d : Discovery} {name : String} {dir : Path}

/-- The directory of a recipe by name, if there is one. -/
def home? (fs : Files) (d : Discovery) (name : String) : Option Path :=
  (d.find fs name).toOption.map (Application.recipePath fs)

theorem home?_of_find (h : d.find fs name = .ok dir) :
    d.home? fs name = some (Application.recipePath fs dir) := by
  rw [home?, h]
  rfl

theorem exists_find_of_home? {p : Path} (h : d.home? fs name = some p) :
    ∃ dir, d.find fs name = .ok dir ∧ Application.recipePath fs dir = p := by
  rw [home?] at h
  cases hfind : d.find fs name with
  | error e =>
    rw [hfind] at h
    cases h
  | ok dir =>
    rw [hfind] at h
    exact ⟨dir, rfl, Option.some.inj h⟩

end Discovery

namespace Application

variable {fs : Files} {active : Storage} {a : Application} {t u v : RecipeTree} {r : Recipe}
  {dir : Path} {d : Discovery} {name : String}

/-- The recipe of a directory is the same however one gets there. -/
theorem load_congr {dir' : Path} (h : recipePath fs dir = recipePath fs dir') :
    a.load fs active dir = a.load fs active dir' := by
  rw [load, load, h]

/-- There is a manifest in the directory of a recipe. -/
theorem isFile_of_load (h : a.load fs active dir = .ok r) : fs.isFile r.manifestFile = true := by
  rw [Recipe.manifestFile, (eq_of_load h).1]
  obtain ⟨_, -, h⟩ := Except.bind_eq_ok_iff.mp h
  obtain ⟨m, hm, -⟩ := Except.bind_eq_ok_iff.mp h
  obtain ⟨data, hdata, -, -⟩ := Manifest.stringsUnder_of_parse hm
  by_contra hnone
  rw [Bool.not_eq_true] at hnone
  simp [Manifest.readValue, hnone] at hdata

/-- The directory of a recipe is the one that the path leads to which it was loaded from. -/
theorem exists_locate_of_load (hne : dir.text ≠ "") (h : a.load fs active dir = .ok r) :
    ∃ place, fs.locate dir = .ok place ∧ r.path = Files.absolute place := by
  have hfile := isFile_of_load h
  rw [Recipe.manifestFile, (eq_of_load h).1, recipePath] at hfile
  rw [(eq_of_load h).1, recipePath]
  cases hcanonical : fs.canonical dir with
  | ok p =>
    obtain ⟨place, hplace, hp⟩ := Except.bind_eq_ok_iff.mp hcanonical
    cases hp
    exact ⟨place, hplace, rfl⟩
  | error e =>
    rw [hcanonical] at hfile
    have hfound : Discovery.Found fs dir := ⟨hne, hfile⟩
    obtain ⟨place, _, hplace, -⟩ := hfound.exists_locate
    rw [Files.canonical, hplace] at hcanonical
    cases hcanonical

/-- A name stands for a recipe in some places. -/
def Names (fs : Files) (active : Storage) (a : Application) (d : Discovery) (name : String)
    (r : Recipe) : Prop :=
  ∃ dir, d.find fs name = .ok dir ∧ a.load fs active dir = .ok r

theorem Names.needsOfName (hworking : fs.locate (Files.absolute fs.working) = .ok fs.working)
    (h : a.Names fs active d name r) :
    Discovery.needsOfName fs d name = (r.install.extensions, r.recipes) := by
  obtain ⟨dir, hdir, hload⟩ := h
  rw [Discovery.needsOfName, hdir]
  exact needsOf_of_load hworking (Discovery.found_of_find hdir) hload

/-- Below a recipe, names are found where the recipe itself finds them. -/
def FindsSame (fs : Files) (a : Application) (u : RecipeTree) : Prop :=
  ∀ v ∈ u.descendants, ∀ name ∈ v.recipe.recipes,
    (a.discovery v.recipe.path).home? fs name = (a.discovery u.recipe.path).home? fs name

instance (fs : Files) (a : Application) (u : RecipeTree) : Decidable (FindsSame fs a u) :=
  inferInstanceAs (Decidable (∀ v ∈ u.descendants, ∀ name ∈ v.recipe.recipes, _ = _))

/-- What is listed below a recipe has the same name in the places of the recipe. -/
theorem FindsSame.names (h : FindsSame fs a u) (hv : v ∈ u.descendants)
    (hlists : a.Lists fs active name v.recipe r) :
    a.Names fs active (a.discovery u.recipe.path) name r := by
  obtain ⟨hname, dir, hdir, hload⟩ := hlists
  have hhome := h v hv name hname
  rw [Discovery.home?_of_find hdir] at hhome
  obtain ⟨dir', hdir', hsame⟩ := Discovery.exists_find_of_home? hhome.symm
  exact ⟨dir', hdir', by rw [load_congr hsame, hload]⟩

section Descendants

variable (hworking : fs.locate (Files.absolute fs.working) = .ok fs.working)
  (hgrown : a.Grown fs active u) (hsame : FindsSame fs a u)
include hworking hgrown hsame

/-- Names that are led to stand for recipes below. -/
theorem exists_descendant_of_mentions {n₀ n : String} (hn₀ : n₀ ∈ u.recipe.recipes)
    (hreach : ReflTransGen (Discovery.Mentions fs (a.discovery u.recipe.path)) n₀ n) :
    ∃ v ∈ u.descendants, a.Names fs active (a.discovery u.recipe.path) n v.recipe := by
  induction hreach with
  | refl =>
    obtain ⟨c, hc, -, dir, hdir, hload⟩ := hgrown.exists_lists hn₀
    exact ⟨c, RecipeTree.mem_descendants.mpr ⟨c, hc, c.mem_nodes_self⟩, dir, hdir, hload⟩
  | tail _ hstep ih =>
    obtain ⟨v, hv, hnames⟩ := ih
    rw [Discovery.Mentions, hnames.needsOfName hworking] at hstep
    obtain ⟨c, hc, hlists⟩ := (hgrown.of_mem_descendants hv).exists_lists hstep
    refine ⟨c, ?_, hsame.names hv hlists⟩
    exact RecipeTree.mem_descendants_of_mem_children hv hc

/-- Recipes below have names that are led to. -/
theorem exists_mentions_of_needs (hneeds : TransGen (a.Needs fs active) u.recipe r) :
    ∃ n₀ ∈ u.recipe.recipes, ∃ n,
      ReflTransGen (Discovery.Mentions fs (a.discovery u.recipe.path)) n₀ n ∧
        a.Names fs active (a.discovery u.recipe.path) n r := by
  induction hneeds with
  | single hstep =>
    obtain ⟨name, hname, hnames⟩ := hstep
    exact ⟨name, hname, name, .refl, hnames⟩
  | tail hreach hstep ih =>
    obtain ⟨n₀, hn₀, n, hmentions, hnames⟩ := ih
    obtain ⟨name, hlists⟩ := hstep
    obtain ⟨v, hv, rfl⟩ := hgrown.exists_descendant_iff.mpr hreach
    refine ⟨n₀, hn₀, name, hmentions.tail ?_, hsame.names hv hlists⟩
    rw [Discovery.Mentions, hnames.needsOfName hworking]
    exact hlists.1

end Descendants

/-- What is gathered for a recipe in a tree is what is installed by those that its names lead to, all
of them looked for in the places of this recipe. If the recipes below find names where it does, that
is what is installed below it in the tree. -/
theorem installed_below_of_resolve
    (hworking : fs.locate (Files.absolute fs.working) = .ok fs.working)
    (h : a.resolve fs active dir = .ok t) (hu : u ∈ t.nodes) :
    (∀ e, e ∈ (a.discovery u.recipe.path).extensionsInstalledBy fs u.recipe.recipes ↔
      ∃ n₀ ∈ u.recipe.recipes, ∃ n,
        ReflTransGen (Discovery.Mentions fs (a.discovery u.recipe.path)) n₀ n ∧
          e ∈ (Discovery.needsOfName fs (a.discovery u.recipe.path) n).1) ∧
    (FindsSame fs a u → ∀ e,
      e ∈ (a.discovery u.recipe.path).extensionsInstalledBy fs u.recipe.recipes ↔
        ∃ v ∈ u.descendants, e ∈ v.recipe.install.extensions) := by
  obtain ⟨-, hgrown⟩ := grown_of_resolve h
  have hgrown : a.Grown fs active u := (hgrown.of_mem_nodes hu).1
  have hgathered : ∀ e,
      e ∈ (a.discovery u.recipe.path).extensionsInstalledBy fs u.recipe.recipes ↔ _ :=
    fun e => Discovery.mem_extensionsInstalledBy
  refine ⟨hgathered, fun hsame e => (hgathered e).trans ⟨?_, ?_⟩⟩
  · rintro ⟨n₀, hn₀, n, hmentions, he⟩
    obtain ⟨v, hv, hnames⟩ := exists_descendant_of_mentions hworking hgrown hsame hn₀ hmentions
    rw [hnames.needsOfName hworking] at he
    exact ⟨v, hv, he⟩
  · rintro ⟨v, hv, he⟩
    obtain ⟨n₀, hn₀, n, hmentions, hnames⟩ := exists_mentions_of_needs hworking hgrown hsame
      (hgrown.exists_descendant_iff.mp ⟨v, hv, rfl⟩)
    refine ⟨n₀, hn₀, n, hmentions, ?_⟩
    rw [hnames.needsOfName hworking]
    exact he

/-! ### An instance -/

/-- Two modules that are there to be installed. -/
def twoModules : Application :=
  { plainApplication with
    catalog := NameMap.ofList [("x", { name := "x", kind := .module }),
      ("y", { name := "y", kind := .module })] }

/-- A recipe of the site that needs a core recipe, which needs the core recipe `b`; that installs
one module, and a recipe of the site with a name to be chosen installs another. -/
def installsBesideCore (name : String) : Files where
  tree := .dir [
    ("core", .dir [("recipes", .dir [
      ("a", .dir [("recipe.yml", .file (.text "name: A\nrecipes: [b]"))]),
      ("b", .dir [("recipe.yml", .file (.text "name: Core\ninstall: [x]"))])])]),
    ("recipes", .dir [
      (name, .dir [("recipe.yml", .file (.text "name: Site\ninstall: [y]"))]),
      ("top", .dir [("recipe.yml", .file (.text "name: Top\nrecipes: [a]"))])])]

/-- If the recipe of the site has another name, what is gathered is what is installed. If it is
called `b`, it is taken for the one that is installed, which is in the core. -/
theorem gathered_unless_namesakes :
    (∃ t, twoModules.resolve (installsBesideCore "c") .null ⟨"/recipes/top"⟩ = .ok t ∧
      ∀ e, e ∈ (twoModules.discovery t.recipe.path).extensionsInstalledBy (installsBesideCore "c")
        t.recipe.recipes ↔ ∃ v ∈ t.descendants, e ∈ v.recipe.install.extensions) ∧
    ∃ t, twoModules.resolve (installsBesideCore "b") .null ⟨"/recipes/top"⟩ = .ok t ∧
      (twoModules.discovery t.recipe.path).extensionsInstalledBy (installsBesideCore "b")
        t.recipe.recipes = ["y"] ∧
      t.descendants.flatMap (·.recipe.install.extensions) = ["x"] := by
  have hother : (match twoModules.resolve (installsBesideCore "c") .null ⟨"/recipes/top"⟩ with
      | .ok t => decide (FindsSame (installsBesideCore "c") twoModules t)
      | .error _ => false) = true := by
    decide +kernel
  have hsame : (match twoModules.resolve (installsBesideCore "b") .null ⟨"/recipes/top"⟩ with
      | .ok t => (twoModules.discovery t.recipe.path).extensionsInstalledBy (installsBesideCore "b")
          t.recipe.recipes == ["y"] &&
        t.descendants.flatMap (·.recipe.install.extensions) == ["x"]
      | .error _ => false) = true := by
    decide +kernel
  constructor
  · split at hother
    · rename_i t ht
      obtain ⟨-, hinstalled⟩ := installed_below_of_resolve rfl ht t.mem_nodes_self
      exact ⟨t, ht, hinstalled (of_decide_eq_true hother)⟩
    · cases hother
  · split at hsame
    · rename_i t ht
      obtain ⟨hgathered, hinstalled⟩ := Bool.and_eq_true_iff.mp hsame
      exact ⟨t, ht, beq_iff_eq.mp hgathered, beq_iff_eq.mp hinstalled⟩
    · cases hsame

end Application

end Cookbook
