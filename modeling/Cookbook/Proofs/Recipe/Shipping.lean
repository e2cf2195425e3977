import Cookbook.Proofs.Extension.Installing
import Cookbook.Proofs.Value.Equality
import Cookbook.Recipe.Loading

/-!
# What a recipe ships

The files in the directory `config` of a recipe are the objects it ships. They come into the
configuration as the recipe's own objects, or as content for the default configuration of extensions
that it installs; in both cases they are read before anything else that has their name. So where a
recipe puts an object under a name that it ships, it is the object that it ships.

Loading compares what a recipe ships with the configuration of that time, and never again. So loading
says something about objects that were there before a run, and nothing about those that recipes run
earlier have put there in the meantime.

## Main definitions

* `RecipeConfig.Ships`: there is a file with an object of a name.
* `RecipeConfig.Matches`: an object has the content that is shipped under its name.
* `Application.Offers`: what a recipe that is run may put where nothing is.

## Main results

* `Application.matches_of_load`: what is there when a recipe is loaded has the content it ships.
* `Application.matches_of_offers`: what a recipe puts under names that it ships.
-/

namespace Cookbook

open Relation (ReflTransGen)

namespace RecipeConfig

/-- The storage of the objects in the directory of a recipe. -/
def own (c : RecipeConfig) : Storage := (c.directory.map Storage.directory).getD .null

/-- There is a file with an object of this name. -/
def Ships (fs : Files) (c : RecipeConfig) (name : String) : Prop :=
  (∃ names, c.own.listNames fs none = .ok names ∧ name ∈ names) ∧
    c.own.holds fs none name = .ok true

/-- Apart from what differs between sites, an object has the content that is shipped under a
name. -/
def Matches (fs : Files) (c : RecipeConfig) (name : String) (o : ConfigObject) : Prop :=
  ∃ shipped, c.own.read? fs none name = .ok (some shipped) ∧
    o.comparable.same shipped.comparable = true

variable {fs : Files} {catalog : Catalog} {c : RecipeConfig} {name : String} {s : Storage}

instance : Decidable (c.Ships fs name) :=
  decidable_of_iff ((∃ names, c.own.listNames fs none = .ok names ∧ name ∈ names) ∧
    ∃ there, c.own.holds fs none name = .ok there ∧ there = true) (by simp [Ships])

instance {o : ConfigObject} : Decidable (c.Matches fs name o) :=
  decidable_of_iff (∃ oo, c.own.read? fs none name = .ok oo ∧
    ∃ shipped ∈ oo, o.comparable.same shipped.comparable = true) (by simp [Matches])

/-- Only files in a directory are shipped. -/
theorem Ships.exists_directory (h : c.Ships fs name) :
    ∃ dir, c.directory = some dir ∧ c.own = .directory dir := by
  obtain ⟨⟨names, hnames, hmem⟩, -⟩ := h
  rw [own] at hnames ⊢
  cases hdir : c.directory with
  | some dir => exact ⟨dir, rfl, rfl⟩
  | none =>
    rw [hdir] at hnames
    cases hnames
    cases hmem

/-- What is shipped was read whenever reading did not fail. -/
theorem Ships.exists_of_read? {oo : Option ConfigObject} (h : c.Ships fs name)
    (hread : c.own.read? fs none name = .ok oo) : ∃ o, oo = some o := by
  have hthere := Storage.holds_of_read? hread
  rw [h.2] at hthere
  exact Option.isSome_iff_exists.mp (Except.ok.inj hthere).symm

/-- What a recipe brings is its own, or its own before what it imports. -/
theorem Ships.storage_eq (h : c.Ships fs name) (hs : c.storage fs catalog = .ok s) :
    s = c.own ∨ ∃ m, s = .merged c.own (.memory m) := by
  obtain ⟨dir, hdir, hown⟩ := h.exists_directory
  have hfirst : c.directory.toList.map Storage.directory = [c.own] := by rw [hdir, hown]; rfl
  rw [storage, hfirst] at hs
  split at hs
  · cases hs
    exact .inl rfl
  · obtain ⟨found, -, hs⟩ := Except.bind_eq_ok_iff.mp hs
    cases hs
    exact .inr ⟨_, rfl⟩

/-- Asked for the default collection, a recipe's own objects are those it ships. -/
theorem Ships.own_eq (h : c.Ships fs name) :
    c.own.read? fs (some defaultCollection) name = c.own.read? fs none name ∧
    c.own.holds fs (some defaultCollection) name = c.own.holds fs none name ∧
    c.own.listNames fs (some defaultCollection) = c.own.listNames fs none := by
  obtain ⟨dir, -, hown⟩ := h.exists_directory
  rw [hown]
  exact ⟨rfl, rfl, rfl⟩

/-- Among all that a recipe brings there is what it ships. -/
theorem Ships.holds_storage (h : c.Ships fs name) (hs : c.storage fs catalog = .ok s) :
    s.holds fs (some defaultCollection) name = .ok true := by
  have hown : c.own.holds fs (some defaultCollection) name = .ok true := h.own_eq.2.1.trans h.2
  rcases h.storage_eq hs with rfl | ⟨m, rfl⟩
  · exact hown
  · rw [Storage.holds, hown]
    rfl

/-- Under a name that a recipe ships, what it brings is what it ships. -/
theorem Ships.read?_of_storage {o : ConfigObject} (h : c.Ships fs name)
    (hs : c.storage fs catalog = .ok s)
    (hread : s.read? fs (some defaultCollection) name = .ok (some o)) :
    c.own.read? fs none name = .ok (some o) := by
  rw [← h.own_eq.1]
  rcases h.storage_eq hs with rfl | ⟨m, rfl⟩
  · exact hread
  · obtain ⟨oo, hown, hread⟩ := Except.bind_eq_ok_iff.mp hread
    obtain ⟨o', rfl⟩ := h.exists_of_read? (h.own_eq.1 ▸ hown)
    cases hread
    exact hown

/-- Among the names of all that a recipe brings there are those that it ships. -/
theorem Ships.mem_listNames {names : List String} (h : c.Ships fs name)
    (hs : c.storage fs catalog = .ok s)
    (hnames : s.listNames fs (some defaultCollection) = .ok names) : name ∈ names := by
  obtain ⟨own, hown, hmem⟩ := h.1
  rw [← h.own_eq.2.2] at hown
  rcases h.storage_eq hs with rfl | ⟨m, rfl⟩
  · rw [hown] at hnames
    cases hnames
    exact hmem
  · obtain ⟨ns, hns, hnames⟩ := Except.bind_eq_ok_iff.mp hnames
    obtain ⟨more, -, hnames⟩ := Except.bind_eq_ok_iff.mp hnames
    rw [hown] at hns
    cases hns
    cases hnames
    exact NameMap.mem_distinctNames.mpr (List.mem_append_left _ hmem)

/-! ### What loading compares -/

/-- What is there and is not found to be different has the content that is shipped. -/
theorem matches_of_mismatched {active : Storage} {dir : Path} {found : ConfigObject}
    (hdir : c.directory = some dir) (h : mismatched fs active dir = .ok [])
    (hships : c.Ships fs name) (hfound : active.read? fs none name = .ok (some found)) :
    c.Matches fs name found := by
  obtain ⟨dir', hdir', hown⟩ := hships.exists_directory
  rw [hdir] at hdir'
  cases hdir'
  obtain ⟨names, hnames, hmem⟩ := hships.1
  obtain ⟨names', hnames', h⟩ := Except.bind_eq_ok_iff.mp h
  rw [hown, hnames'] at hnames
  cases hnames
  obtain ⟨differs, hdiffers, hlisted⟩ := Except.exists_of_mem_filterM h name hmem
  obtain ⟨oo, hactive, hdiffers⟩ := Except.bind_eq_ok_iff.mp hdiffers
  rw [hfound] at hactive
  cases hactive
  obtain ⟨ship, hread, hdiffers⟩ := Except.bind_eq_ok_iff.mp hdiffers
  rw [← hown] at hread
  obtain ⟨shipped, rfl⟩ := hships.exists_of_read? hread
  refine ⟨shipped, hread, ?_⟩
  cases hsame : found.comparable.same shipped.comparable with
  | true => rfl
  | false =>
    cases hdiffers
    have hmem := hlisted (by simp [hsame])
    cases hmem

theorem matches_of_ofSection {active : Storage} {wanted : ConfigSection} {dir : Path} {id : String}
    {found : ConfigObject} (h : ofSection fs active wanted dir id = .ok c)
    (hships : c.Ships fs name) (hfound : active.read? fs none name = .ok (some found)) :
    c.Matches fs name found := by
  rw [ofSection] at h
  by_cases hisDir : fs.isDir (dir.join "config") = true
  · simp only [hisDir, if_true] at h
    obtain ⟨differing, hdiffering, h⟩ := Except.bind_eq_ok_iff.mp h
    cases differing with
    | nil =>
      cases h
      exact matches_of_mismatched rfl hdiffering hships hfound
    | cons n ns => cases h
  · simp only [hisDir, Bool.false_eq_true, if_false] at h
    cases h
    obtain ⟨own, hown, -⟩ := hships.exists_directory
    cases hown

/-- Nothing is found to be different if all that is there has the content that is shipped. -/
theorem mismatched_eq_nil {active : Storage} {dir : Path} {names : List String}
    (hdir : c.directory = some dir) (hnames : c.own.listNames fs none = .ok names)
    (h : ∀ name ∈ names, ∃ oo, active.read? fs none name = .ok oo ∧ ∀ o ∈ oo, c.Matches fs name o) :
    mismatched fs active dir = .ok [] := by
  have hown : c.own = .directory dir := by
    rw [own, hdir]
    rfl
  rw [hown] at hnames
  refine Except.bind_eq_ok_iff.mpr ⟨names, hnames, Except.filterM_eq_nil fun name hname => ?_⟩
  obtain ⟨oo, hread, hmatches⟩ := h name hname
  refine Except.bind_eq_ok_iff.mpr ⟨oo, hread, ?_⟩
  cases oo with
  | none => rfl
  | some o =>
    obtain ⟨shipped, hshipped, hsame⟩ := hmatches o rfl
    rw [hown] at hshipped
    refine Except.bind_eq_ok_iff.mpr ⟨some shipped, hshipped, ?_⟩
    simp only [Option.getD_some, hsame]
    rfl

/-- A manifest asks for the same configuration at any time when what is there has the content that
is shipped. -/
theorem ofSection_of_matches {active active' : Storage} {wanted : ConfigSection} {dir : Path}
    {id : String} (h : ofSection fs active wanted dir id = .ok c)
    (hmatches : ∀ names, c.own.listNames fs none = .ok names → ∀ name ∈ names,
      ∃ oo, active'.read? fs none name = .ok oo ∧ ∀ o ∈ oo, c.Matches fs name o) :
    ofSection fs active' wanted dir id = .ok c := by
  rw [ofSection] at h ⊢
  by_cases hisDir : fs.isDir (dir.join "config") = true
  · simp only [hisDir, if_true] at h ⊢
    obtain ⟨differing, hdiffering, h⟩ := Except.bind_eq_ok_iff.mp h
    obtain ⟨names, hnames, -⟩ := Except.bind_eq_ok_iff.mp hdiffering
    cases differing with
    | nil =>
      have hdir : c.directory = some (dir.join "config") := by
        cases h
        rfl
      have hlisted : c.own.listNames fs none = .ok names := by
        cases h
        exact hnames
      exact Except.bind_eq_ok_iff.mpr
        ⟨[], mismatched_eq_nil hdir hlisted (hmatches names hlisted), h⟩
    | cons n ns => cases h
  · simp only [hisDir, Bool.false_eq_true, if_false] at h ⊢
    exact h

end RecipeConfig

namespace Application

variable {fs : Files} {a : Application} {r : Recipe} {name : String} {o : ConfigObject}

/-- What is there when a recipe is loaded has the content that the recipe ships. -/
theorem matches_of_load {active : Storage} {dir : Path} (h : a.load fs active dir = .ok r)
    (hships : r.config.Ships fs name) (ho : active.read? fs none name = .ok (some o)) :
    r.config.Matches fs name o := by
  obtain ⟨installed, -, h⟩ := Except.bind_eq_ok_iff.mp h
  obtain ⟨m, -, h⟩ := Except.bind_eq_ok_iff.mp h
  obtain ⟨install, -, h⟩ := Except.bind_eq_ok_iff.mp h
  obtain ⟨config, hconfig, h⟩ := Except.bind_eq_ok_iff.mp h
  cases h
  exact RecipeConfig.matches_of_ofSection hconfig hships ho

/-- What a recipe that is run may put where nothing is: an object that it brings, or one of an
extension that is installed for it, if it brings none of that name. -/
def Offers (fs : Files) (a : Application) (r : Recipe) (name : String) (o : ConfigObject) : Prop :=
  ∃ s, r.config.storage fs a.catalog = .ok s ∧
    (s.read? fs (some defaultCollection) name = .ok (some o) ∨
      s.holds fs (some defaultCollection) name = .ok false ∧
        ∃ n ∈ r.install.modules ++ r.install.themes, ∃ y x, ReflTransGen a.catalog.Needs n y ∧
          a.catalog.get? y = some x ∧
            x.defaults.read? fs (some defaultCollection) name = .ok (some o))

/-- Under a name that it ships, a recipe puts nothing else than what it ships. -/
theorem read?_of_offers (h : a.Offers fs r name o) (hships : r.config.Ships fs name) :
    r.config.own.read? fs none name = .ok (some o) := by
  obtain ⟨s, hs, hread | ⟨hnone, -⟩⟩ := h
  · exact hships.read?_of_storage hs hread
  · rw [hships.holds_storage hs] at hnone
    cases hnone

theorem matches_of_offers (h : a.Offers fs r name o) (hships : r.config.Ships fs name) :
    r.config.Matches fs name o :=
  ⟨o, read?_of_offers h hships, Value.same_refl _⟩

end Application

end Cookbook
