import Cookbook.Proofs.Checkpoint.Taking
import Cookbook.Proofs.Extension.Calls
import Cookbook.Proofs.Recipe.Bringing
import Cookbook.Proofs.Recipe.Creating
import Cookbook.Proofs.Recipe.Rules
import Cookbook.Proofs.Storage.Listing

/-!
# Applying a recipe again

When a recipe is applied a second time, it is loaded against a configuration that it has changed
itself: its extensions are installed, and its objects are there. Loading must not find its own
objects to be different from those it ships. That depends on where each of them came from. What was
there before the first run was compared then, and is as it was; everything else was put there by the
run, and under a name that the recipe ships it puts nothing but what it ships.

The list of installed extensions is an object as well, but one that changes with every extension. A
recipe that ships it may find it to be different the next time, so such recipes are left out.

Once the recipe is loaded, nothing is left to do. It has nothing to install and nothing to create,
and a recipe without actions does nothing else.

## Main definitions

* `Guard.listing`: some extensions are listed as installed.
* `Application.Standing`: the configuration has what a recipe lists, ships and brings.

## Main results

* `Application.standing_of_process`: what a run leaves.
* `Application.load_of_standing`: the recipe can be loaded again, with nothing to install.
* `Application.repeated_of_apply`: applying a recipe again changes nothing.
-/

namespace Cookbook

open Change

variable {fs : Files} {w w' : Workspace} {m m' : Snapshot}

/-! ### What is listed as installed -/

/-- Some extensions are listed as installed. -/
def Guard.listing (names : List String) : Guard := fun c name oo =>
  c = defaultCollection → name = coreExtension → names ⊆ Storage.installedIn oo

theorem Catalog.leads_install_listing {catalog : Catalog} (hcatalog : catalog.Named)
    {names : List String} {name : String} {overrides : Option Storage} :
    Leads (Workspace.Stands fs (.listing names)) (catalog.install [name] overrides)
      (fun _ => Workspace.Stands fs (.listing (name :: names))) True := by
  rintro w ⟨rfl, m, hm, hlisting⟩
  have hw := Workspace.stands_recorded hm
  cases horder : catalog.installOrder
      (Storage.installedIn (m.object? defaultCollection coreExtension)) [name] with
  | error e => exact .inr ⟨trivial, e, w, outcome_install_of_error hw horder⟩
  | ok order =>
    refine (leads_install horder).mono ?_ (fun _ => trivial) w hw
    rintro u w' ⟨⟨hfiles, m', hm', hrecorded⟩, -⟩
    refine ⟨hfiles, m', hm', ?_⟩
    rintro c k rfl rfl n hn
    rw [hrecorded _ _ rfl rfl, mem_installedIn_planned horder hcatalog]
    rcases List.mem_cons.mp hn with rfl | hn
    · exact .inr (.of_mem (List.mem_singleton_self _))
    · exact .inl (hlisting _ _ rfl rfl hn)

namespace Application

variable {a : Application} {r : Recipe} {dir : Path} {names : List String}

theorem leads_installExtensions_listing (hcatalog : a.catalog.Named) :
    Leads (Workspace.Stands fs (.listing names)) (a.installExtensions r)
      (fun _ => Workspace.Stands fs
        (.listing (r.install.modules ++ r.install.themes ++ names))) True := by
  rw [installExtensions]
  split
  · rename_i hnone
    have hnone : r.install.modules = [] ∧ r.install.themes = [] := by
      simpa [InstallPlan.isEmpty] using hnone
    rw [hnone.1, hnone.2]
    exact Leads.pure fun _ hw => hw
  · refine Leads.bind_of_keeps stands_brought fun s _ => ?_
    refine (Leads.forM (V := fun names => Workspace.Stands fs (.listing names))
      (g := fun names name => name :: names)
      (fun name _ names => Catalog.leads_install_listing hcatalog) names).mono ?_ id
    intro _ w hw
    refine hw.mono fun c k oo hlisting hc hk n hn => hlisting hc hk ?_
    have hfold : (r.install.modules ++ r.install.themes).foldl (fun names name => name :: names)
        names = (r.install.modules ++ r.install.themes).reverse ++ names := by simp
    rw [hfold]
    exact List.mem_append.mpr ((List.mem_append.mp hn).imp_left List.mem_reverse.mpr)

/-- After a run all extensions of the recipe are listed. -/
theorem leads_process_listing (hcatalog : a.catalog.Named) (hactions : r.config.actions = []) :
    Leads (Workspace.Stands fs (.listing names)) (a.process r)
      (fun _ => Workspace.Stands fs
        (.listing (r.install.modules ++ r.install.themes ++ names))) True := by
  refine (leads_installExtensions_listing hcatalog).bind fun _ => ?_
  refine Leads.bind_of_keeps stands_brought fun s _ => ?_
  refine Leads.bind_of_keeps (Validator.stands_createMissing _ fun hfree _ hc hk n hn => ?_)
    fun _ _ => ?_
  · exact absurd (hfree hc hk hn) List.not_mem_nil
  · rw [hactions]
    exact Leads.pure fun _ hw => hw

/-! ### What a run leaves -/

/-- The configuration has what a recipe lists, ships and brings. -/
structure Standing (fs : Files) (a : Application) (r : Recipe) (m : Snapshot) : Prop where
  /-- Its extensions are installed. -/
  installed : ∀ name ∈ r.install.extensions, name ∈ m.installed
  /-- What is there has the content that it ships. -/
  alike : ∀ names, r.config.own.listNames fs none = .ok names → ∀ name ∈ names,
    ∀ o ∈ m.object? defaultCollection name, r.config.Matches fs name o
  /-- All names are taken under which it brings something. -/
  taken : ∃ s names, r.config.storage fs a.catalog = .ok s ∧
    s.listNames fs (some defaultCollection) = .ok names ∧
    ∀ name ∈ names, (m.object? defaultCollection name).isSome = true

theorem mem_of_load (h : a.load fs (.memory m) dir = .ok r) :
    ∀ name ∈ r.install.extensions, name ∈ m.installed ∨
      name ∈ r.install.modules ++ r.install.themes := by
  obtain ⟨installed, hinstalled, h⟩ := Except.bind_eq_ok_iff.mp h
  obtain ⟨_, -, h⟩ := Except.bind_eq_ok_iff.mp h
  obtain ⟨_, hplan, h⟩ := Except.bind_eq_ok_iff.mp h
  obtain ⟨_, -, h⟩ := Except.bind_eq_ok_iff.mp h
  cases h
  rw [(Storage.Shows.memory m).installedExtensions] at hinstalled
  cases hinstalled
  exact (InstallPlan.mem_of_ofExtensions hplan).2

/-- A recipe without actions leaves all in place for another run. -/
theorem standing_of_process {u : Unit} (hfiles : w.files.Sound) (hcatalog : a.catalog.Named)
    (hm : w.active = .memory m) (hload : a.load w.files (.memory m) dir = .ok r)
    (hactions : r.config.actions = []) (hships : ¬r.config.Ships w.files coreExtension)
    (h : outcome (a.process r) w = (.ok u, w')) :
    w'.files = w.files ∧ ∃ m', w'.active = .memory m' ∧ m.installed ⊆ m'.installed ∧
      Standing w.files a r m' := by
  obtain ⟨hfiles', m', hm', hbrings⟩ := brings_process hactions rfl hm h
  have hlisted : w.Stands w.files (.listing m.installed) := by
    refine ⟨rfl, m, hm, ?_⟩
    rintro c k rfl rfl
    exact List.Subset.refl _
  obtain ⟨-, m₁, hm₁, hlisting⟩ := (leads_process_listing hcatalog hactions).of_ok hlisted h
  obtain ⟨s, names, hs, hnames, -, m₂, hm₂, htaken⟩ :=
    (leads_process_listed hactions).of_ok ⟨rfl, m, hm, fun _ _ => trivial⟩ h
  cases hm'.symm.trans hm₁
  cases hm'.symm.trans hm₂
  have hlisting : r.install.modules ++ r.install.themes ++ m.installed ⊆ m'.installed :=
    hlisting _ _ rfl rfl
  refine ⟨hfiles', m', hm', fun name hname => hlisting (List.mem_append_right _ hname), ?_, ?_, ?_⟩
  · intro name hname
    refine hlisting (List.mem_append.mpr ?_)
    exact (mem_of_load hload name hname).symm
  · intro names hnames name hname o ho
    have hshipped : r.config.Ships w.files name :=
      ⟨⟨names, hnames, hname⟩, Storage.holds_of_mem_listNames hfiles hnames hname⟩
    have hne : name ≠ coreExtension := by
      rintro rfl
      exact hships hshipped
    cases hbefore : m.object? defaultCollection name with
    | some o' =>
      -- what was there is as it was, and it was compared
      cases (hbrings.kept hne hbefore).symm.trans ho
      exact matches_of_load hload hshipped (congrArg Except.ok hbefore)
    | none =>
      obtain ⟨before, r', after, heq, hoffers, -⟩ := hbrings.offered hne hbefore ho
      obtain rfl : r' = r := by
        have hmem : r' ∈ [r] := heq ▸ List.mem_append_right _ List.mem_cons_self
        exact List.mem_singleton.mp hmem
      exact matches_of_offers hoffers hshipped
  · refine ⟨s, names, hs, hnames, fun name hname => htaken _ name rfl ⟨hname, ?_⟩⟩
    exact Storage.holds_of_mem_listNames hfiles hnames hname

/-! ### Another run -/

/-- A recipe with nothing to install. -/
def settled (r : Recipe) : Recipe :=
  { r with install := { extensions := r.install.extensions } }

/-- The recipe can be loaded again. -/
theorem load_of_standing (hload : a.load fs (.memory m) dir = .ok r)
    (hinstalled : m.installed ⊆ m'.installed) (h : Standing fs a r m') :
    a.load fs (.memory m') dir = .ok (settled r) := by
  obtain ⟨installed, hread, hload⟩ := Except.bind_eq_ok_iff.mp hload
  obtain ⟨manifest, hmanifest, hload⟩ := Except.bind_eq_ok_iff.mp hload
  obtain ⟨plan, hplan, hload⟩ := Except.bind_eq_ok_iff.mp hload
  obtain ⟨config, hconfig, hload⟩ := Except.bind_eq_ok_iff.mp hload
  cases hload
  rw [(Storage.Shows.memory m).installedExtensions] at hread
  cases hread
  have hmore : ∀ install recipes,
      (a.manifestContext fs (recipePath fs dir) m.installed).availableExtensions install recipes ⊆
        (a.manifestContext fs (recipePath fs dir) m'.installed).availableExtensions install
          recipes := by
    intro install recipes n hn
    simp only [manifestContext, List.mem_append] at hn ⊢
    exact hn.imp_left (Or.imp_left fun hn => hinstalled hn)
  have hmanifest' : Manifest.parse fs (a.manifestContext fs (recipePath fs dir) m'.installed)
      (Discovery.manifestFile (recipePath fs dir)) ((recipePath fs dir).fileName?.getD "")
        = .ok manifest :=
    Manifest.parse_of_available hmore hmanifest
  have hextensions := (InstallPlan.mem_of_ofExtensions hplan).1
  have hplan' : InstallPlan.ofExtensions a.catalog m'.installed manifest.install
      = .ok { extensions := plan.extensions } := by
    rw [hextensions]
    exact InstallPlan.ofExtensions_of_installed (hextensions ▸ h.installed)
  have hconfig' : RecipeConfig.ofSection fs (.memory m') manifest.config (recipePath fs dir)
      ((recipePath fs dir).fileName?.getD "") = .ok config :=
    RecipeConfig.ofSection_of_matches hconfig fun names hnames name hname =>
      ⟨_, rfl, h.alike names hnames name hname⟩
  refine Except.bind_eq_ok_iff.mpr
    ⟨m'.installed, (Storage.Shows.memory m').installedExtensions fs, ?_⟩
  refine Except.bind_eq_ok_iff.mpr ⟨manifest, hmanifest', ?_⟩
  refine Except.bind_eq_ok_iff.mpr ⟨{ extensions := plan.extensions }, hplan', ?_⟩
  exact Except.bind_eq_ok_iff.mpr ⟨config, hconfig', rfl⟩

/-- Nothing is created where all names are taken. -/
theorem Validator.outcome_createMissing_of_taken (v : Validator) {source : Storage}
    {names : List String} (hm : w.active = .memory m)
    (hnames : source.listNames w.files (some defaultCollection) = .ok names)
    (htaken : ∀ name ∈ names, (m.object? defaultCollection name).isSome = true) :
    outcome (v.createMissing source) w = (.ok [], w) := by
  have hnone : (names.filter fun name => (m.object? defaultCollection name).isNone) = [] := by
    refine List.filter_eq_nil_iff.mpr fun name hname => ?_
    simp [Option.isSome_iff_ne_none.mp (htaken name hname)]
  rw [Validator.outcome_createMissing hm hnames, hnone]
  rfl

/-- Running it changes nothing. -/
theorem outcome_process_of_standing (hm : w.active = .memory m) (hactions : r.config.actions = [])
    (h : Standing w.files a r m) : outcome (a.process (settled r)) w = (.ok (), w) := by
  obtain ⟨s, names, hs, hnames, htaken⟩ := h.taken
  have hbrought : outcome (a.brought (settled r)) w = (.ok s, w) := by
    rw [brought, ConfigM.outcome_ask]
    exact congrArg (·, w) hs
  have hinstall : outcome (a.installExtensions (settled r)) w = (.ok (), w) := rfl
  rw [process, outcome_bind_ok hinstall, configure, outcome_bind_ok hbrought,
    outcome_bind_ok (Validator.outcome_createMissing_of_taken a.schemas hm hnames htaken)]
  rw [show (settled r).config.actions = [] from hactions]
  rfl

/-! ### Recipes that need no others -/

/-- The tree of a recipe that needs no others. -/
theorem resolve_of_load {active : Storage} (hload : a.load fs active dir = .ok r)
    (hrecipes : r.recipes = []) : a.resolve fs active dir = .ok (.node r []) := by
  obtain ⟨fuel, hfuel⟩ : ∃ fuel, depthBound fs = fuel + 1 :=
    Nat.exists_eq_succ_of_ne_zero (Nat.mul_ne_zero (Nat.succ_ne_zero _) (Nat.succ_ne_zero _))
  refine Except.bind_eq_ok_iff.mpr ⟨r, hload, ?_⟩
  rw [hfuel, build, hrecipes]
  rfl

theorem run_node (a : Application) (r : Recipe) :
    a.run (.node r []) = (do a.process r; return [r.id]) := by
  rw [run, show (RecipeTree.node r []).executionOrder = [r] from rfl]
  simp

variable {s s' : CheckpointStorage} {report : ApplyReport}

/-- **Applying a recipe again.** If a recipe was applied that needs no others, has no actions and
does not ship the list of installed extensions, it can be applied again, and the second time leaves
everything but the log as it is. Files as they are in a file system are sound, and catalogs that are
read from files have names as they are needed here (`Catalog.named_discover`). The log has to have
an id left. One that was filled by making checkpoints has one as long as there are fewer than
2⁶⁴ - 1 of them (`CheckpointLog.Reached.hasNumber_iff`). -/
theorem repeated_of_apply (hfiles : s.workspace.files.Sound) (hcatalog : a.catalog.Named)
    (hactive : s.workspace.InMemory) (hlog : s.log.InMemory)
    (hload : a.load s.workspace.files s.workspace.active dir = .ok r) (hrecipes : r.recipes = [])
    (hactions : r.config.actions = []) (hships : ¬r.config.Ships s.workspace.files coreExtension)
    (h : outcome (a.apply dir) s = (.ok report, s')) (hnumber : s'.log.HasNumber) :
    ∃ report' s'', outcome (a.apply dir) s' = (.ok report', s'') ∧
      s''.workspace = s'.workspace := by
  obtain ⟨m, hm⟩ := Workspace.inMemory_iff.mp hactive
  have hends := applied_outcome a dir s
  rw [h] at hends
  cases hends with
  | @done t b s₁ ids w' ht hbackup hrun =>
  cases (resolve_of_load hload hrecipes).symm.trans ht
  obtain ⟨snaps, hsnaps⟩ := hlog
  have htaken := CheckpointM.taken_checkpoint hm hsnaps (backupLabel s (.node r []))
  rw [hbackup] at htaken
  rw [htaken.workspace_eq, run_node] at hrun
  obtain ⟨u, w, hprocess, hids⟩ := eq_ok_of_outcome_bind hrun
  cases hids
  rw [hm] at hload
  obtain ⟨hfiles', m', hm', hinstalled, hstanding⟩ :=
    standing_of_process hfiles hcatalog hm hload hactions hships hprocess
  rw [← hfiles'] at hload hstanding
  have hload' : a.load w'.files w'.active dir = .ok (settled r) := by
    rw [hm']
    exact load_of_standing hload hinstalled hstanding
  obtain ⟨b', s₂, hbackup', hworkspace⟩ :=
    CheckpointM.exists_checkpoint_after hm hsnaps hbackup hm'
      (CheckpointLog.hasLabel_backupLabel s₁.log r.name) hnumber
  have hrun' : outcome (a.run (.node (settled r) [])) s₂.workspace = (.ok [r.id], w') := by
    rw [hworkspace, run_node,
      outcome_bind_ok (outcome_process_of_standing hm' hactions hstanding)]
    rfl
  exact ⟨_, _, outcome_apply_of_run (resolve_of_load hload' hrecipes) hbackup' hrun', rfl⟩

/-! ### An instance -/

/-- An application with two modules, one of which requires the other. -/
def blogApplication : Application := { plainApplication with catalog := Catalog.blogs }

/-- A site with a recipe that installs both and has other content for an object of one of them. -/
def siteOfBlogs : CheckpointStorage := plainSite {
  tree := .dir [("r", .dir [
    ("config", .dir [("text.settings.yml", .file (.text "a: 1"))]),
    ("recipe.yml", .file (.text "name: Blog\ninstall: [blog]"))])] }

/-- The recipe is applied twice. -/
theorem repeated_in_siteOfBlogs : ∃ report s' report' s'',
    outcome (blogApplication.apply ⟨"/r"⟩) siteOfBlogs = (.ok report, s') ∧
      "blog" ∈ s'.workspace.installed ∧
      outcome (blogApplication.apply ⟨"/r"⟩) s' = (.ok report', s'') ∧
      s''.workspace = s'.workspace := by
  have hloaded : (match blogApplication.load siteOfBlogs.workspace.files
      siteOfBlogs.workspace.active ⟨"/r"⟩ with
    | .ok r => r.recipes.isEmpty && r.config.actions.isEmpty &&
      !decide (r.config.Ships siteOfBlogs.workspace.files coreExtension)
    | .error _ => false) = true := by
    decide +kernel
  have happlied : blogApplication.appliesWith ⟨"/r"⟩ siteOfBlogs
      (fun _ s' => s'.workspace.installed.contains "blog" &&
        decide (s'.log.highest + 1 < Nat.pow 2 64)) = true := by
    decide +kernel
  obtain ⟨-, report, s', -, h, hleft⟩ := exists_of_appliesWith happlied
  simp only [Bool.and_eq_true, decide_eq_true_eq] at hleft
  obtain ⟨hinstalled, hnumber⟩ := hleft
  have hsound : siteOfBlogs.workspace.files.Sound := by decide +kernel
  split at hloaded
  · rename_i r hload
    simp only [Bool.and_eq_true, List.isEmpty_iff, Bool.not_eq_true', decide_eq_false_iff_not]
      at hloaded
    obtain ⟨⟨hrecipes, hactions⟩, hships⟩ := hloaded
    obtain ⟨report', s'', h', hsame⟩ := repeated_of_apply hsound Catalog.named_blogs
      (inMemory_plainSite _) ⟨_, rfl⟩ hload hrecipes hactions hships h hnumber
    exact ⟨report, s', report', s'', h, by simpa using hinstalled, h', hsame⟩
  · cases hloaded

end Application

end Cookbook
