import Cookbook.Proofs.Recipe.Gathering

/-!
# What recipes install, by their manifests

Some recipes, given by name, install what their manifests list under `install` and what is installed
by the recipes these list under `recipes`. Said without the search for them, that is everything
reached from the names: names whose recipe is found and has a manifest that can be read lead to the
strings listed there, and other names lead nowhere.

The search finds exactly that, in whatever order it takes the names. So the recipes may list each
other in a circle, and a name may come more than once; what counts is which names there are.

## Main definitions

* `Discovery.Reads`: the manifest under a name.
* `Discovery.Lists`: the strings under a key of a manifest.
* `Discovery.Reached`: the names that are reached from some names.

## Main results

* `Discovery.ledTo_iff_reached`: names that lead on, by manifests.
* `Discovery.extensionsInstalledBy_of_reached`: what recipes install.
-/

namespace Cookbook

namespace Discovery

variable {fs : Files} {d : Discovery} {names names' : List String} {name e : String} {data : Value}

/-- Under a name a recipe is found, and this is what its manifest says. -/
def Reads (fs : Files) (d : Discovery) (name : String) (data : Value) : Prop :=
  ∃ dir, d.find fs name = .ok dir ∧ Manifest.readValue fs (manifestFile dir) = .ok data

/-- Under a key of a manifest is a sequence, and a string is in it. -/
def Lists (data : Value) (key s : String) : Prop :=
  ∃ root v items item, data.asMapping? = some root ∧ root.getName? key = some v ∧
    v.asSequence? = some items ∧ item ∈ items ∧ item.asString? = some s

/-- What is reached from some names, by what manifests list under `recipes`. -/
inductive Reached (fs : Files) (d : Discovery) (names : List String) : String → Prop where
  | start {name : String} (h : name ∈ names) : Reached fs d names name
  | listed {name name' : String} {data : Value} (h : Reached fs d names name)
    (hdata : Reads fs d name data) (hlists : Lists data "recipes" name') : Reached fs d names name'

/-- An extension that is installed by one of the recipes that are reached. -/
def Installs (fs : Files) (d : Discovery) (names : List String) (e : String) : Prop :=
  ∃ name data s, Reached fs d names name ∧ Reads fs d name data ∧ Lists data "install" s ∧
    Extension.dependencyName s = e

/-! ### What a manifest says -/

theorem mem_stringsUnder {key s : String} : s ∈ stringsUnder data key ↔ Lists data key s := by
  rw [stringsUnder]
  constructor
  · intro h
    cases hitems : ((data.asMapping?).bind (·.getName? key)).bind Value.asSequence? with
    | none =>
      rw [hitems] at h
      cases h
    | some items =>
      rw [hitems] at h
      obtain ⟨item, hitem, hs⟩ := List.mem_filterMap.mp h
      obtain ⟨v, hv, hitems⟩ := Option.bind_eq_some_iff.mp hitems
      obtain ⟨root, hroot, hv⟩ := Option.bind_eq_some_iff.mp hv
      exact ⟨root, v, items, item, hroot, hv, hitems, hitem, hs⟩
  · rintro ⟨root, v, items, item, hroot, hv, hitems, hitem, hs⟩
    rw [hroot, Option.bind_some, hv, Option.bind_some, hitems]
    exact List.mem_filterMap.mpr ⟨item, hitem, hs⟩

theorem needsOfName_of_reads (h : Reads fs d name data) : needsOfName fs d name =
    ((stringsUnder data "install").map Extension.dependencyName, stringsUnder data "recipes") := by
  obtain ⟨dir, hdir, hdata⟩ := h
  rw [needsOfName, hdir]
  dsimp only
  rw [needsOf, hdata]

/-- A recipe that cannot be found, or has a manifest that cannot be read, needs nothing. -/
theorem needsOfName_of_not_reads (h : ∀ data, ¬Reads fs d name data) :
    needsOfName fs d name = ([], []) := by
  rw [needsOfName]
  cases hdir : d.find fs name with
  | error e => rfl
  | ok dir =>
    dsimp only
    rw [needsOf]
    cases hdata : Manifest.readValue fs (manifestFile dir) with
    | error e => rfl
    | ok data => exact absurd ⟨dir, hdir, hdata⟩ (h data)

theorem mentions_iff {name' : String} :
    Mentions fs d name name' ↔ ∃ data, Reads fs d name data ∧ Lists data "recipes" name' := by
  rw [Mentions]
  constructor
  · intro h
    by_cases hreads : ∃ data, Reads fs d name data
    · obtain ⟨data, hdata⟩ := hreads
      rw [needsOfName_of_reads hdata] at h
      exact ⟨data, hdata, mem_stringsUnder.mp h⟩
    · rw [needsOfName_of_not_reads (not_exists.mp hreads)] at h
      cases h
  · rintro ⟨data, hdata, hlists⟩
    rw [needsOfName_of_reads hdata]
    exact mem_stringsUnder.mpr hlists

theorem mem_install_iff : e ∈ (needsOfName fs d name).1 ↔
    ∃ data s, Reads fs d name data ∧ Lists data "install" s ∧ Extension.dependencyName s = e := by
  constructor
  · intro h
    by_cases hreads : ∃ data, Reads fs d name data
    · obtain ⟨data, hdata⟩ := hreads
      rw [needsOfName_of_reads hdata] at h
      obtain ⟨s, hs, rfl⟩ := List.mem_map.mp h
      exact ⟨data, s, hdata, mem_stringsUnder.mp hs, rfl⟩
    · rw [needsOfName_of_not_reads (not_exists.mp hreads)] at h
      cases h
  · rintro ⟨data, s, hdata, hlists, rfl⟩
    rw [needsOfName_of_reads hdata]
    exact List.mem_map_of_mem (mem_stringsUnder.mpr hlists)

/-! ### What is reached -/

theorem ledTo_iff_reached : LedTo fs d names name ↔ Reached fs d names name := by
  constructor
  · rintro ⟨n₀, hn₀, hreach⟩
    induction hreach with
    | refl => exact .start hn₀
    | tail _ hlists ih =>
      obtain ⟨data, hdata, hlists⟩ := mentions_iff.mp hlists
      exact ih.listed hdata hlists
  · intro h
    induction h with
    | start h => exact ⟨_, h, .refl⟩
    | listed _ hdata hlists ih => exact ih.tail (mentions_iff.mpr ⟨_, hdata, hlists⟩)

/-- What leads on is also reached from any other list that has the names that lead on. -/
theorem Reached.mono (h : Reached fs d names name)
    (hnames : ∀ n ∈ names, ∀ data, Reads fs d n data → n ∈ names') (hdata : Reads fs d name data) :
    Reached fs d names' name := by
  induction h generalizing data with
  | start h => exact .start (hnames _ h _ hdata)
  | listed _ hreads hlists ih => exact (ih hreads).listed hreads hlists

theorem Installs.mono (h : Installs fs d names e)
    (hnames : ∀ n ∈ names, ∀ data, Reads fs d n data → n ∈ names') : Installs fs d names' e := by
  obtain ⟨name, data, s, hreached, hdata, hlists, he⟩ := h
  exact ⟨name, data, s, hreached.mono hnames hdata, hdata, hlists, he⟩

theorem Tracks.mem_found_iff_installs {s : Progress} (h : Tracks fs d names s)
    (hdone : s.pending = []) : e ∈ s.found ↔ Installs fs d names e := by
  rw [h.mem_found_iff hdone]
  constructor
  · rintro ⟨n, hn, he⟩
    obtain ⟨data, s, hdata, hlists, hname⟩ := mem_install_iff.mp he
    exact ⟨n, data, s, ledTo_iff_reached.mp hn, hdata, hlists, hname⟩
  · rintro ⟨n, data, s, hn, hdata, hlists, hname⟩
    exact ⟨n, ledTo_iff_reached.mpr hn, mem_install_iff.mpr ⟨data, s, hdata, hlists, hname⟩⟩

theorem mem_extensionsInstalledBy_iff_installs :
    e ∈ d.extensionsInstalledBy fs names ↔ Installs fs d names e := by
  obtain ⟨k, s, hrun, hdone, hfound⟩ := exists_run_extensionsInstalledBy fs d names
  rw [hfound, NameMap.mem_distinctNames]
  exact ((Tracks.start fs d names).run hrun).mem_found_iff_installs hdone

/-- Names that lead nowhere, repetitions and the order make no difference. -/
theorem extensionsInstalledBy_congr
    (h : ∀ n data, Reads fs d n data → (n ∈ names ↔ n ∈ names')) :
    d.extensionsInstalledBy fs names = d.extensionsInstalledBy fs names' := by
  have hiff : ∀ e,
      e ∈ d.extensionsInstalledBy fs names ↔ e ∈ d.extensionsInstalledBy fs names' := by
    intro e
    rw [mem_extensionsInstalledBy_iff_installs, mem_extensionsInstalledBy_iff_installs]
    constructor
    · exact fun he => he.mono fun n hn data hdata => (h n data hdata).mp hn
    · exact fun he => he.mono fun n hn data hdata => (h n data hdata).mpr hn
  simp only [extensionsInstalledBy, NameMap.mem_distinctNames] at hiff
  exact NameMap.distinctNames_congr hiff

/-- The extensions that recipes install are those named under `install` by the manifests of the
recipes that are reached, each once and ascending. Looking for them comes to an end whichever names
are taken first, and finds the same. Recipes that cannot be found or read add nothing, and it makes
no difference in which order and how often the names come. -/
theorem extensionsInstalledBy_of_reached (fs : Files) (d : Discovery) (names : List String) :
    (∀ k s, Run fs d k (Progress.start names) s → k < gatherBound fs d names ∧
      (s.pending ≠ [] → ∃ s', Step fs d s s') ∧
      (s.pending = [] → NameMap.distinctNames s.found = d.extensionsInstalledBy fs names)) ∧
    (∃ k s, Run fs d k (Progress.start names) s ∧ s.pending = []) ∧
    (∀ e, e ∈ d.extensionsInstalledBy fs names ↔ Installs fs d names e) ∧
    (d.extensionsInstalledBy fs names).Pairwise (· < ·) ∧
    (∀ broken, (∀ n ∈ broken, ∀ data, ¬Reads fs d n data) →
      d.extensionsInstalledBy fs (broken ++ names) = d.extensionsInstalledBy fs names) ∧
    ∀ names', (∀ n, n ∈ names' ↔ n ∈ names) →
      d.extensionsInstalledBy fs names' = d.extensionsInstalledBy fs names := by
  refine ⟨fun k s hrun => ⟨hrun.lt_gatherBound, exists_step, fun hdone => ?_⟩, ?_,
    fun e => mem_extensionsInstalledBy_iff_installs, NameMap.ascending _, ?_, ?_⟩
  · refine NameMap.distinctNames_congr fun e => ?_
    rw [((Tracks.start fs d names).run hrun).mem_found_iff_installs hdone,
      ← mem_extensionsInstalledBy_iff_installs, extensionsInstalledBy, NameMap.mem_distinctNames]
  · obtain ⟨k, s, hrun, hdone, -⟩ := exists_run_extensionsInstalledBy fs d names
    exact ⟨k, s, hrun, hdone⟩
  · intro broken hbroken
    refine extensionsInstalledBy_congr fun n data hdata => ?_
    rw [List.mem_append]
    exact or_iff_right fun hn => hbroken n hn data hdata
  · exact fun names' hnames => extensionsInstalledBy_congr fun n _ _ => hnames n

/-! ### An instance -/

/-- Two recipes that list each other, one that cannot be read and one that is not there. -/
def circleWithBroken : Files where
  tree := .dir [("recipes", .dir [
    ("a", .dir [("recipe.yml", .file (.text "name: A\ninstall: [node]\nrecipes: [b, broken]"))]),
    ("b", .dir [("recipe.yml", .file (.text
      "name: B\ninstall: ['drupal:user (>= 1)', 7]\nrecipes: [gone, a]"))]),
    ("broken", .dir [("recipe.yml", .file (.text "name: [C\ninstall: [views]"))])])]

/-- From whatever list of these names, the two that can be read are gone through. -/
theorem installed_around_circle : ∀ names, (∀ n, n ∈ names ↔ n ∈ ["gone", "a", "broken"]) →
    (⟨[⟨"/recipes"⟩]⟩ : Discovery).extensionsInstalledBy circleWithBroken names
      = ["node", "user"] := by
  intro names hnames
  obtain ⟨-, -, -, -, -, hsame⟩ := extensionsInstalledBy_of_reached circleWithBroken
    ⟨[⟨"/recipes"⟩]⟩ ["gone", "a", "broken"]
  rw [hsame names hnames]
  decide +kernel

end Discovery

end Cookbook
