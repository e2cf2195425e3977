import Cookbook.Proofs.Recipe.Applying
import Cookbook.Proofs.Recipe.Execution
import Cookbook.Proofs.Recipe.Shipping
import Cookbook.Proofs.Storage.Changes

/-!
# What a run brings

A run without actions only adds. What is in the default collection stays as it is, and the recipes
take turns with what is still free: an object that is new was offered by a recipe, and no recipe
before that one ships the name. The list of installed extensions is the exception, as it is rewritten
whenever one is installed.

Loading has compared what was there before the run with what the recipes ship. What they put there
during the run is compared with nothing. So after a run there is an object under every name that is
shipped, but it has the content that was shipped only for the first recipe that comes with the name.

## Main definitions

* `Application.Brings`: what recipes that were run bring.
* `Application.OfferedUpTo`: an object of the first recipe that comes with its name.
* `Application.Agree`: recipes that ship what earlier ones offer.
* `Application.Shipped`: everything in a tree is there as it is shipped.

## Main results

* `Application.brings_process`, `Application.brings_mapM`: one recipe, and one after the other.
* `Application.shipped_of_apply`: where what is shipped has come from, once a recipe is applied.
-/

namespace Cookbook

open Change
open Relation (ReflTransGen)

variable {fs : Files} {w : Workspace}

namespace Guard

/-- Names with a property are taken in the default collection. -/
def taken (P : String → Prop) : Guard :=
  fun c name oo => c = defaultCollection → P name → oo.isSome = true

/-- The objects of a snapshot are in the default collection, and besides them only what a recipe
offers. The list of installed extensions may be anything. -/
def adds (fs : Files) (a : Application) (r : Recipe) (m : Snapshot) : Guard := fun c name oo =>
  c = defaultCollection → name ≠ coreExtension →
    (∀ o, m.object? defaultCollection name = some o → oo = some o) ∧
      (m.object? defaultCollection name = none → ∀ o ∈ oo, a.Offers fs r name o)

end Guard

/-! ### Creating objects -/

/-- What was listed is taken. -/
theorem ConfigM.leads_list :
    Leads (Workspace.Stands fs .free) (ConfigM.list (some defaultCollection) "")
      (fun found => Workspace.Stands fs (.taken (· ∈ found))) True := by
  rintro w ⟨rfl, m, hm, -⟩
  rw [ConfigM.list, ConfigM.outcome_ask, hm]
  refine .inl ⟨_, w, rfl, rfl, m, hm, fun c name hc hname => ?_⟩
  subst hc
  exact (NameMap.mem_names_iff ..).mp (List.mem_filter.mp hname).1

/-- One more name is taken by writing an object. -/
theorem ConfigM.leads_write {names : List String} {name : String} (o : ConfigObject) :
    Leads (Workspace.Stands fs (.taken (· ∈ names))) (ConfigM.write (some defaultCollection) name o)
      (fun _ => Workspace.Stands fs (.taken (· ∈ name :: names))) True := by
  rintro w ⟨rfl, m, hm, htaken⟩
  rw [ConfigM.outcome_write hm]
  refine .inl ⟨_, _, rfl, rfl, _, rfl, fun c k hc hk => ?_⟩
  rw [Snapshot.object?_putObject]
  split
  · rfl
  · rename_i hother
    exact htaken c k hc ((List.mem_cons.mp hk).resolve_left fun heq => hother ⟨hc.symm, heq.symm⟩)

/-- Once missing objects have been created, all names are taken that the source lists and has. -/
theorem Validator.leads_createMissing (v : Validator) (source : Storage) :
    Leads (Workspace.Stands fs .free) (v.createMissing source)
      (fun _ w => ∃ names, source.listNames fs (some defaultCollection) = .ok names ∧
        w.Stands fs (.taken fun name =>
          name ∈ names ∧ source.holds fs (some defaultCollection) name = .ok true)) True := by
  refine ConfigM.leads_list.bind fun found => ?_
  refine Leads.bind_of_keeps (ConfigM.stands_ask fun _ _ _ hlisted => hlisted)
    fun listed hlisted => ?_
  dsimp only
  split
  · rename_i hnone
    refine Leads.pure fun w hw =>
      ⟨listed, hlisted, hw.mono fun c name oo htaken hc hname => htaken hc ?_⟩
    have hfound := List.filter_eq_nil_iff.mp (List.isEmpty_iff.mp hnone) name hname.1
    simpa using hfound
  refine Leads.bind_of_keeps (ConfigM.stands_ask fun _ _ _ hos => hos) fun os hos => ?_
  refine (Leads.forM (V := fun taken => Workspace.Stands fs (.taken (· ∈ taken)))
    (g := fun taken name => name :: taken) (fun name hname taken => ?_) found).bind fun _ => ?_
  · obtain ⟨o, ho⟩ := Option.isSome_iff_exists.mp (Objects.mem_dependencyOrder.mp hname)
    rw [ho]
    exact ConfigM.leads_write o
  refine Leads.bind_of_keeps (Keeps.forM fun name _ => v.stands_check name) fun _ _ => ?_
  refine Leads.pure fun w hw =>
    ⟨listed, hlisted, hw.mono fun c name oo htaken hc hname => htaken hc ?_⟩
  have hfold : os.dependencyOrder.foldl (fun taken name => name :: taken) found
      = os.dependencyOrder.reverse ++ found := by simp
  rw [hfold]
  by_cases hfound : name ∈ found
  · exact List.mem_append_right _ hfound
  · have hmissing : name ∈ listed.filter (!found.contains ·) :=
      List.mem_filter.mpr ⟨hname.1, by simpa using hfound⟩
    have hread := Storage.holds_of_read? (Storage.read?_of_readMultiple hos hmissing)
    rw [hname.2] at hread
    refine List.mem_append_left _ (List.mem_reverse.mpr (Objects.mem_dependencyOrder.mpr ?_))
    exact (Except.ok.inj hread).symm

namespace Application

variable {a : Application} {r : Recipe} {rs rs' : List Recipe} {m m' m'' : Snapshot}

/-! ### One recipe -/

theorem adds_of_free {name : String} {o : ConfigObject}
    (hfree : Guard.adds fs a r m defaultCollection name none) (ho : a.Offers fs r name o) :
    Guard.adds fs a r m defaultCollection name (some o) := by
  intro _ hne
  refine ⟨fun o' ho' => ?_, fun _ o' ho' => ?_⟩
  · cases (hfree rfl hne).1 o' ho'
  · cases ho'
    exact ho

/-- A recipe without actions adds only what it offers. -/
theorem stands_process_adds (hactions : r.config.actions = []) (m : Snapshot) :
    Keeps (Workspace.Stands fs (.adds fs a r m)) (a.process r) fun _ => True := by
  refine (stands_installExtensions ?_ ?_).bind fun _ _ => stands_brought.bind fun s hs => ?_
  · intro name x oo _ _ _ hne
    exact absurd rfl hne
  · intro s c name o n y x hs hn hreach hx hfree ho hc
    subst hc
    refine adds_of_free hfree ⟨s, hs, ?_⟩ rfl
    rcases Storage.read?_of_overriding ho with hread | ⟨hnone, hread⟩
    · exact .inl hread
    · exact .inr ⟨hnone, n, hn, y, x, hreach, hx, hread⟩
  · refine (Validator.stands_createMissing _ fun hfree ho => ?_).bind fun _ _ => ?_
    · exact adds_of_free hfree ⟨s, hs, .inl ho⟩
    · rw [hactions]
      exact Keeps.pure trivial

/-- After a recipe without actions all names are taken that what it brings lists and has. -/
theorem leads_process_listed (hactions : r.config.actions = []) :
    Leads (Workspace.Stands fs .free) (a.process r)
      (fun _ w => ∃ s names, r.config.storage fs a.catalog = .ok s ∧
        s.listNames fs (some defaultCollection) = .ok names ∧ w.Stands fs (.taken fun name =>
          name ∈ names ∧ s.holds fs (some defaultCollection) name = .ok true)) True := by
  refine Leads.bind_of_keeps (stands_installExtensions ?_ ?_) fun _ _ => ?_
  · exact fun _ _ _ _ _ => trivial
  · exact fun _ _ _ _ _ _ => trivial
  refine Leads.bind_of_keeps stands_brought fun s hs => ?_
  refine (Validator.leads_createMissing _ s).bind fun _ => ?_
  rw [hactions]
  exact Leads.pure fun w ⟨names, hnames, hw⟩ => ⟨s, names, hs, hnames, hw⟩

/-- So all names are taken that it ships. -/
theorem leads_process_taken (hactions : r.config.actions = []) :
    Leads (Workspace.Stands fs .free) (a.process r)
      (fun _ => Workspace.Stands fs (.taken (r.config.Ships fs))) True := by
  refine (leads_process_listed hactions).mono ?_ id
  rintro _ w ⟨s, names, hs, hnames, hw⟩
  refine hw.mono fun c name oo htaken hc hships => htaken hc ?_
  exact ⟨hships.mem_listNames hs hnames, hships.holds_storage hs⟩

/-! ### All recipes of a run -/

/-- What recipes that were run bring to the default collection, apart from the list of installed
extensions. -/
structure Brings (fs : Files) (a : Application) (done : List Recipe) (m m' : Snapshot) : Prop where
  /-- What was there is still there. -/
  kept : ∀ {name o}, name ≠ coreExtension → m.object? defaultCollection name = some o →
    m'.object? defaultCollection name = some o
  /-- What is new was offered by a recipe, and none before it ships the name. -/
  offered : ∀ {name o}, name ≠ coreExtension → m.object? defaultCollection name = none →
    m'.object? defaultCollection name = some o → ∃ before r after, done = before ++ r :: after ∧
      a.Offers fs r name o ∧ ∀ z ∈ before, ¬z.config.Ships fs name
  /-- All names that the recipes ship are taken. -/
  taken : ∀ {name}, name ≠ coreExtension → ∀ r ∈ done, r.config.Ships fs name →
    (m'.object? defaultCollection name).isSome = true

theorem Brings.nil (m : Snapshot) : Brings fs a [] m m where
  kept := fun _ ho => ho
  offered := by
    intro name o _ hnone ho
    rw [hnone] at ho
    cases ho
  taken := by simp

/-- What is new after two runs was offered in the first, or it was still free then. -/
theorem Brings.append (h : Brings fs a rs m m') (h' : Brings fs a rs' m' m'') :
    Brings fs a (rs ++ rs') m m'' where
  kept := fun hne ho => h'.kept hne (h.kept hne ho)
  offered := by
    intro name o hne hnone ho
    cases hmiddle : m'.object? defaultCollection name with
    | some o' =>
      have hkept := h'.kept hne hmiddle
      rw [ho] at hkept
      cases hkept
      obtain ⟨before, r, after, rfl, hoffers, hfirst⟩ := h.offered hne hnone hmiddle
      exact ⟨before, r, after ++ rs', by simp, hoffers, hfirst⟩
    | none =>
      obtain ⟨before, r, after, rfl, hoffers, hfirst⟩ := h'.offered hne hmiddle ho
      refine ⟨rs ++ before, r, after, by simp, hoffers, fun z hz hships => ?_⟩
      rcases List.mem_append.mp hz with hz | hz
      · have htaken := h.taken hne z hz hships
        rw [hmiddle] at htaken
        cases htaken
      · exact hfirst z hz hships
  taken := by
    intro name hne r hr hships
    rcases List.mem_append.mp hr with hr | hr
    · obtain ⟨o, ho⟩ := Option.isSome_iff_exists.mp (h.taken hne r hr hships)
      rw [h'.kept hne ho]
      rfl
    · exact h'.taken hne r hr hships

theorem brings_process {u : Unit} {w' : Workspace} (hactions : r.config.actions = [])
    (hfiles : w.files = fs) (hm : w.active = .memory m)
    (h : outcome (a.process r) w = (.ok u, w')) :
    w'.files = fs ∧ ∃ m', w'.active = .memory m' ∧ Brings fs a [r] m m' := by
  have hstart : w.Stands fs (.adds fs a r m) := by
    refine ⟨hfiles, m, hm, fun c name hc _ => ?_⟩
    rw [hc]
    refine ⟨fun o ho => ho, fun hnone o ho => ?_⟩
    rw [hnone] at ho
    cases ho
  obtain ⟨hfiles', m', hm', hadds⟩ := (stands_process_adds hactions m).state hstart h
  obtain ⟨-, m'', hm'', htaken⟩ :=
    (leads_process_taken hactions).of_ok ⟨hfiles, m, hm, fun _ _ => trivial⟩ h
  rw [hm'] at hm''
  cases hm''
  refine ⟨hfiles', m', hm', ⟨fun hne ho => (hadds _ _ rfl hne).1 _ ho, fun hne hnone ho => ?_, ?_⟩⟩
  · exact ⟨[], r, [], rfl, (hadds _ _ rfl hne).2 hnone _ ho, by simp⟩
  · intro name _ z hz hships
    rw [List.mem_singleton.mp hz] at hships
    exact htaken _ name rfl hships

/-- What the recipes of a run bring, one after the other. -/
theorem brings_mapM {ids : List String} {w' : Workspace}
    (hactions : ∀ r ∈ rs, r.config.actions = []) (hfiles : w.files = fs) (hm : w.active = .memory m)
    (h : outcome (rs.mapM fun r => do a.process r; return r.id) w = (.ok ids, w')) :
    ∃ m', w'.active = .memory m' ∧ Brings fs a rs m m' := by
  induction rs generalizing w m ids with
  | nil =>
    cases h
    exact ⟨m, hm, .nil m⟩
  | cons r rs ih =>
    rw [List.mapM_cons] at h
    obtain ⟨id, w₁, hfirst, h⟩ := eq_ok_of_outcome_bind h
    obtain ⟨rest, w₂, hrest, h⟩ := eq_ok_of_outcome_bind h
    cases h
    obtain ⟨u, w₃, hprocess, hid⟩ := eq_ok_of_outcome_bind hfirst
    cases hid
    rw [List.forall_mem_cons] at hactions
    obtain ⟨hfiles₁, m₁, hm₁, hbrings⟩ := brings_process hactions.1 hfiles hm hprocess
    obtain ⟨m', hm', hbrings'⟩ := ih hactions.2 hfiles₁ hm₁ hrest
    exact ⟨m', hm', hbrings.append hbrings'⟩

/-! ### Where shipped objects come from -/

/-- An object is offered under a name by a recipe of a run that does not come after a given one, and
no recipe before it ships the name. -/
def OfferedUpTo (fs : Files) (a : Application) (rs : List Recipe) (r : Recipe) (name : String)
    (o : ConfigObject) : Prop :=
  ∃ before r' after, rs = before ++ r' :: after ∧ r ∈ r' :: after ∧ a.Offers fs r' name o ∧
    ∀ z ∈ before, ¬z.config.Ships fs name

/-- Under a name that was free and is shipped, there is an object that was offered. -/
theorem Brings.exists_offered {name : String} (h : Brings fs a rs m m') (hne : name ≠ coreExtension)
    (hnone : m.object? defaultCollection name = none) (hr : r ∈ rs)
    (hships : r.config.Ships fs name) :
    ∃ o, m'.object? defaultCollection name = some o ∧ a.OfferedUpTo fs rs r name o := by
  obtain ⟨o, ho⟩ := Option.isSome_iff_exists.mp (h.taken hne r hr hships)
  obtain ⟨before, r', after, rfl, hoffers, hfirst⟩ := h.offered hne hnone ho
  refine ⟨o, ho, before, r', after, rfl, ?_, hoffers, hfirst⟩
  exact (List.mem_append.mp hr).resolve_left fun hz => hfirst r hz hships

/-- What a recipe offers under a name that is free, recipes that are run later ship with the same
content, if they ship it. -/
def Agree (fs : Files) (a : Application) (m : Snapshot) (rs : List Recipe) : Prop :=
  rs.Pairwise fun r r' => ∀ name o, name ≠ coreExtension →
    m.object? defaultCollection name = none → a.Offers fs r name o → r'.config.Ships fs name →
      r'.config.Matches fs name o

theorem Agree.matches {name : String} {o : ConfigObject} (h : a.Agree fs m rs)
    (hne : name ≠ coreExtension) (hnone : m.object? defaultCollection name = none)
    (hoffered : a.OfferedUpTo fs rs r name o) (hships : r.config.Ships fs name) :
    r.config.Matches fs name o := by
  obtain ⟨before, r', after, rfl, hr, hoffers, -⟩ := hoffered
  rcases List.mem_cons.mp hr with rfl | hr
  · exact matches_of_offers hoffers hships
  · have hlater := (List.pairwise_cons.mp (List.pairwise_append.mp h).2.1).1
    exact hlater r hr name o hne hnone hoffers hships

/-- What a recipe brings under a name, recipes that are run later ship with the same content, if they
ship it. -/
def BringAlike (fs : Files) (a : Application) (rs : List Recipe) : Prop :=
  rs.Pairwise fun r r' => ∀ names, r'.config.own.listNames fs none = .ok names →
    ∀ name ∈ names, ∀ s, r.config.storage fs a.catalog = .ok s →
      ∀ oo, s.read? fs (some defaultCollection) name = .ok oo →
        ∀ o ∈ oo, r'.config.Matches fs name o

instance : Decidable (a.BringAlike fs rs) := inferInstanceAs (Decidable (rs.Pairwise _))

/-- Without extensions only what the recipes bring has to be compared. -/
theorem agree_of_alike (ha : a.catalog = NameMap.empty) (h : a.BringAlike fs rs) :
    a.Agree fs m rs := by
  refine List.Pairwise.imp (fun {r r'} hmatches name o _ _ hoffers hships => ?_) h
  obtain ⟨names, hnames, hname⟩ := hships.1
  obtain ⟨s, hs, hread | ⟨-, n, hn, y, x, -, hx, -⟩⟩ := hoffers
  · exact hmatches names hnames name hname s hs (some o) hread o rfl
  · rw [ha] at hx
    cases hx

/-! ### Applying -/

variable {dir : Path} {s s' : CheckpointStorage} {t : RecipeTree}

/-- Applying a recipe runs its tree on the configuration as it is. -/
theorem run_of_apply {report : ApplyReport} (hm : s.workspace.active = .memory m)
    (hlog : s.log.InMemory) (ht : a.resolve s.workspace.files s.workspace.active dir = .ok t)
    (h : outcome (a.apply dir) s = (.ok report, s')) :
    ∃ ids, outcome (a.run t) s.workspace = (.ok ids, s'.workspace) := by
  obtain ⟨snaps, hsnaps⟩ := hlog
  have hends := applied_outcome a dir s
  rw [h] at hends
  cases hends with
  | done hload hbackup hrun =>
    rw [ht] at hload
    cases hload
    have htaken := CheckpointM.taken_checkpoint hm hsnaps (backupLabel s t)
    rw [hbackup] at htaken
    rw [htaken.workspace_eq] at hrun
    exact ⟨_, hrun⟩

/-- What is there before a run has the content that the recipes of the run ship. -/
theorem matches_of_resolve {active : Storage} {name : String} {o : ConfigObject}
    (ht : a.resolve fs active dir = .ok t) (hr : r ∈ t.executionOrder)
    (hships : r.config.Ships fs name) (ho : active.read? fs none name = .ok (some o)) :
    r.config.Matches fs name o := by
  obtain ⟨hload, hgrown⟩ := grown_of_resolve ht
  obtain ⟨u, hu, rfl⟩ := exists_node_of_executionOrder hgrown hr
  obtain ⟨d, hd⟩ := hgrown.exists_load hload hu
  exact matches_of_load hd hships ho

/-- Under a name that a recipe of the run ships, there is the object from before the run, with the
content that is shipped, or one that was offered. -/
theorem Brings.exists_shipped {name : String} (hbrings : Brings fs a t.executionOrder m m')
    (ht : a.resolve fs (.memory m) dir = .ok t) (hr : r ∈ t.executionOrder)
    (hne : name ≠ coreExtension) (hships : r.config.Ships fs name) :
    ∃ o, m'.object? defaultCollection name = some o ∧
      (m.object? defaultCollection name = some o ∧ r.config.Matches fs name o ∨
        m.object? defaultCollection name = none ∧ a.OfferedUpTo fs t.executionOrder r name o) := by
  cases hbefore : m.object? defaultCollection name with
  | some o =>
    have hread : (Storage.memory m).read? fs none name = .ok (some o) := congrArg Except.ok hbefore
    exact ⟨o, hbrings.kept hne hbefore, .inl ⟨rfl, matches_of_resolve ht hr hships hread⟩⟩
  | none =>
    obtain ⟨o, ho, hoffered⟩ := hbrings.exists_offered hne hbefore hr hships
    exact ⟨o, ho, .inr ⟨rfl, hoffered⟩⟩

/-- Everything that the recipes in a tree ship is there with the content they ship. -/
def Shipped (fs : Files) (t : RecipeTree) (m : Snapshot) : Prop :=
  ∀ u ∈ t.nodes, ∀ name, name ≠ coreExtension → u.recipe.config.Ships fs name →
    ∃ o, m.object? defaultCollection name = some o ∧ u.recipe.config.Matches fs name o

/-- Once a recipe is applied whose tree has no actions, there is an object under every name that a
recipe of the run ships. If there was one before, it has the content that is shipped. Otherwise it
is what the first recipe offers that comes with the name, whatever later ones ship. So everything in
the tree is there as it is shipped, if names tell its recipes apart and what a recipe offers agrees
with what later ones ship. -/
theorem shipped_of_apply {report : ApplyReport} (hm : s.workspace.active = .memory m)
    (hlog : s.log.InMemory) (ht : a.resolve s.workspace.files s.workspace.active dir = .ok t)
    (hactions : ∀ r ∈ t.executionOrder, r.config.actions = [])
    (h : outcome (a.apply dir) s = (.ok report, s')) :
    ∃ m', s'.workspace.active = .memory m' ∧
      (∀ r ∈ t.executionOrder, ∀ name, name ≠ coreExtension →
        r.config.Ships s.workspace.files name → ∃ o, m'.object? defaultCollection name = some o ∧
          (m.object? defaultCollection name = some o ∧
              r.config.Matches s.workspace.files name o ∨
            m.object? defaultCollection name = none ∧
              a.OfferedUpTo s.workspace.files t.executionOrder r name o)) ∧
      (t.NamesTell → a.Agree s.workspace.files m t.executionOrder →
        Shipped s.workspace.files t m') := by
  obtain ⟨ids, hrun⟩ := run_of_apply hm hlog ht h
  obtain ⟨m', hm', hbrings⟩ := brings_mapM hactions rfl hm hrun
  rw [hm] at ht
  refine ⟨m', hm', fun r hr name hne hships => hbrings.exists_shipped ht hr hne hships, ?_⟩
  intro hnames hagree u hu name hne hships
  obtain ⟨hload, hgrown⟩ := grown_of_resolve ht
  have hr := mem_executionOrder_of_namesTell hgrown hload hnames hu
  obtain ⟨o, ho, ⟨-, hmatches⟩ | ⟨hnone, hoffered⟩⟩ := hbrings.exists_shipped ht hr hne hships
  · exact ⟨o, ho, hmatches⟩
  · exact ⟨o, ho, hagree.matches hne hnone hoffered hships⟩

/-! ### An instance -/

/-- A site with two recipes that ship an object of the same name, the first with a text to be
chosen. -/
abbrev noteTwice (first : String) : CheckpointStorage := plainSite {
  tree := .dir [("recipes", .dir [
    ("base", .dir [
      ("config", .dir [("core.note.yml", .file (.text first))]),
      ("recipe.yml", .file (.text "name: Base"))]),
    ("top", .dir [
      ("config", .dir [("core.note.yml", .file (.text "a: 1"))]),
      ("recipe.yml", .file (.text "name: Top\nrecipes: [base]"))])])] }

/-- Whether a recipe can be loaded and applied, with a tree and a site that pass a check. -/
def appliesWith (a : Application) (dir : Path) (s : CheckpointStorage)
    (check : RecipeTree → CheckpointStorage → Bool) : Bool :=
  match a.resolve s.workspace.files s.workspace.active dir, outcome (a.apply dir) s with
  | .ok t, (.ok _, s') => check t s'
  | _, _ => false

theorem exists_of_appliesWith {check : RecipeTree → CheckpointStorage → Bool}
    (h : a.appliesWith dir s check = true) :
    ∃ t report s', a.resolve s.workspace.files s.workspace.active dir = .ok t ∧
      outcome (a.apply dir) s = (.ok report, s') ∧ check t s' = true := by
  rw [appliesWith] at h
  split at h
  · rename_i t report s' ht hs'
    exact ⟨t, report, s', ht, hs', h⟩
  · cases h

/-- If the texts differ only in what differs between sites, all is there as it is shipped. If they
differ otherwise, the object of the first recipe stays, and the second one is applied all the
same. -/
theorem shipped_unless_disagreeing :
    (∃ t report s' m', plainApplication.resolve (noteTwice "uuid: u\na: 1").workspace.files
        (noteTwice "uuid: u\na: 1").workspace.active ⟨"/recipes/top"⟩ = .ok t ∧
      outcome (plainApplication.apply ⟨"/recipes/top"⟩) (noteTwice "uuid: u\na: 1")
        = (.ok report, s') ∧ s'.workspace.active = .memory m' ∧
      Shipped (noteTwice "uuid: u\na: 1").workspace.files t m') ∧
    ∃ t report s' m', plainApplication.resolve (noteTwice "a: 2").workspace.files
        (noteTwice "a: 2").workspace.active ⟨"/recipes/top"⟩ = .ok t ∧
      outcome (plainApplication.apply ⟨"/recipes/top"⟩) (noteTwice "a: 2") = (.ok report, s') ∧
      s'.workspace.active = .memory m' ∧ ¬Shipped (noteTwice "a: 2").workspace.files t m' := by
  have hagrees : plainApplication.appliesWith ⟨"/recipes/top"⟩ (noteTwice "uuid: u\na: 1")
      (fun t _ => t.executionOrder.all (·.config.actions.isEmpty) && (decide t.NamesTell &&
        decide (plainApplication.BringAlike (noteTwice "uuid: u\na: 1").workspace.files
          t.executionOrder))) = true := by
    decide +kernel
  have hdiffers : plainApplication.appliesWith ⟨"/recipes/top"⟩ (noteTwice "a: 2")
      (fun t s' => match s'.workspace.active with
        | .memory m' => decide (∃ u ∈ t.nodes,
          u.recipe.config.Ships (noteTwice "a: 2").workspace.files "core.note" ∧
            ¬∃ o ∈ m'.object? defaultCollection "core.note",
              u.recipe.config.Matches (noteTwice "a: 2").workspace.files "core.note" o)
        | _ => false) = true := by
    decide +kernel
  constructor
  · obtain ⟨t, report, s', ht, h, hchecked⟩ := exists_of_appliesWith hagrees
    simp only [Bool.and_eq_true, decide_eq_true_eq, List.all_eq_true, List.isEmpty_iff] at hchecked
    obtain ⟨hactions, hnames, halike⟩ := hchecked
    obtain ⟨m, hm⟩ := Workspace.inMemory_iff.mp (inMemory_plainSite _)
    have hlog : (noteTwice "uuid: u\na: 1").log.InMemory := ⟨_, rfl⟩
    obtain ⟨m', hm', -, hshipped⟩ := shipped_of_apply hm hlog ht hactions h
    exact ⟨t, report, s', m', ht, h, hm', hshipped hnames (agree_of_alike rfl halike)⟩
  · obtain ⟨t, report, s', ht, h, hchecked⟩ := exists_of_appliesWith hdiffers
    split at hchecked
    · rename_i m' hm'
      obtain ⟨u, hu, hships, hnone⟩ := of_decide_eq_true hchecked
      refine ⟨t, report, s', m', ht, h, hm', fun hshipped => hnone ?_⟩
      exact hshipped u hu "core.note" (by decide) hships
    · cases hchecked

end Application

end Cookbook
