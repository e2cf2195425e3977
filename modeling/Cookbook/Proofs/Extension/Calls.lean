import Cookbook.Proofs.Extension.Recording

/-!
# Calls of the installer

Over configuration in memory the calls of an installer are changes of one set, that of the installed
extensions, and each of them says beforehand what it will do. Installing succeeds if all that is
reached is known and can be read, and adds what is reached. Uninstalling takes away what it is given
and asks nothing of the rest.

That rests on the object that lists what is installed having each name under the kind that the
catalog has for it. The calls keep that, also those that fail half way, so it holds after any
calls. The object itself is kept exact as well: two ascending lists, one for each kind.

## Main definitions

* `InstallerCall`, `Catalog.perform`, `Catalog.after`: calls, and what any number of them leave.
* `Catalog.Records`: an object lists what is installed, and nothing else.
* `Catalog.Installs`, `Catalog.Uninstalls`: what a call does to the set of installed extensions.

## Main results

* `Catalog.installs`, `Catalog.uninstalls`: a single call.
* `Catalog.exact_after`: after any calls.
-/

namespace Cookbook

open Change

/-- A call of the installer. -/
inductive InstallerCall where
  /-- Install extensions, with the content that a storage may have for their objects. -/
  | install (names : List String) (overrides : Option Storage)
  /-- Uninstall extensions. -/
  | uninstall (names : List String)

namespace Catalog

variable {catalog : Catalog} {fs : Files} {I : Option ConfigObject → Prop} {w : Workspace}
  {names : List String} {overrides : Option Storage} {name : String} {o : ConfigObject}

/-- Make a call. -/
def perform (catalog : Catalog) : InstallerCall → ConfigM Unit
  | .install names overrides => catalog.install names overrides
  | .uninstall names => catalog.uninstall names

/-- What calls leave one after the other, whether they succeed or fail. -/
def after (catalog : Catalog) (calls : List InstallerCall) (w : Workspace) : Workspace :=
  calls.foldl (fun w call => (outcome (catalog.perform call) w).2) w

/-! ### What calls keep -/

/-- What the calls of an installer keep of the object that lists what is installed. -/
structure Preserves (catalog : Catalog) (I : Option ConfigObject → Prop) : Prop where
  /-- What is listed is in the catalog, each name under its kind. -/
  sorts : ∀ {oo}, I oo → catalog.Sorts (oo.getD Mapping.empty)
  /-- It is kept when an extension is listed or taken out. -/
  listed : ∀ {name x oo} installed, catalog.get? name = some x → I oo →
    I (some (Catalog.listed x installed (oo.getD Mapping.empty)))

theorem Preserves.unlistedAll (hI : catalog.Preserves I) (installed : List String)
    {oo : Option ConfigObject} (h : I oo) : I (catalog.unlistedAll installed names oo) := by
  induction names generalizing oo with
  | nil => exact h
  | cons name names ih =>
    refine ih ?_
    dsimp only
    split
    · split
      · rename_i x hx
        exact hI.listed false hx h
      · exact h
    · exact h

theorem contains_of_installedIn {oo : Option ConfigObject}
    (h : catalog.Sorts (oo.getD Mapping.empty)) (hname : name ∈ Storage.installedIn oo) :
    catalog.contains name = true :=
  h.contains (installedIn_eq oo ▸ hname)

/-- Uninstalling succeeds, because all that is installed is in the catalog. -/
theorem exists_outcome_uninstall {oo : Option ConfigObject}
    (hsorts : catalog.Sorts (oo.getD Mapping.empty)) (hw : w.Stands fs (Guard.recorded oo))
    (names : List String) :
    ∃ w', outcome (catalog.uninstall names) w = (.ok (), w') ∧ w'.Stands fs
      (Guard.recorded (catalog.unlistedAll (Storage.installedIn oo) names oo)) := by
  have huninstall : Leads (Workspace.Stands fs (Guard.recorded oo)) (catalog.uninstall names)
      (fun _ => Workspace.Stands fs
        (Guard.recorded (catalog.unlistedAll (Storage.installedIn oo) names oo))) False :=
    leads_uninstall fun _ hname => contains_of_installedIn hsorts hname
  obtain ⟨u, w', hw', hstands⟩ := huninstall.exists_ok not_false hw
  exact ⟨w', hw', hstands⟩

theorem keeps_lists_perform (hI : catalog.Preserves I) (call : InstallerCall) :
    Keeps (Workspace.Lists fs I) (catalog.perform call) fun _ => True := by
  cases call with
  | install names overrides => exact keeps_lists_install fun _ _ _ hx hoo => hI.listed true hx hoo
  | uninstall names =>
    rintro w ⟨oo, hoo, hw⟩
    obtain ⟨w', hw', hstands⟩ := exists_outcome_uninstall (hI.sorts hoo) hw names
    rw [show outcome (catalog.perform (.uninstall names)) w = (.ok (), w') from hw']
    exact ⟨⟨_, hI.unlistedAll _ hoo, hstands⟩, fun _ _ => trivial⟩

theorem lists_after (hI : catalog.Preserves I) (h : w.Lists fs I) (calls : List InstallerCall) :
    (catalog.after calls w).Lists fs I := by
  induction calls generalizing w with
  | nil => exact h
  | cons call calls ih => exact ih (keeps_lists_perform hI call w h).1

/-- What is listed stays sorted by kind. -/
theorem preserves_sorts (hcatalog : catalog.Named) :
    catalog.Preserves fun oo => catalog.Sorts (oo.getD Mapping.empty) where
  sorts := id
  listed := by
    intro name x oo installed hx hoo
    obtain rfl := hcatalog name x hx
    exact hoo.listed hx installed

/-! ### Single calls -/

/-- The default configuration of all that is reached and not installed can be read. -/
def CanBring (catalog : Catalog) (fs : Files) (overrides : Option Storage)
    (installed names : List String) : Prop :=
  ∀ name x, catalog.Reaches installed names name → name ∉ installed →
    catalog.get? name = some x → (x.source overrides).Exports fs

/-- What installing does to the set of installed extensions. -/
structure Installs (catalog : Catalog) (names : List String) (overrides : Option Storage)
    (w : Workspace) : Prop where
  /-- It succeeds exactly if all that is reached is in the catalog, and the default configuration of
  what is not installed can be read. -/
  ok_iff : (outcome (catalog.install names overrides) w).1 = .ok () ↔
    (∀ name, catalog.Reaches w.installed names name → catalog.contains name = true) ∧
      catalog.CanBring w.files overrides w.installed names
  /-- It fails without any change if something is reached that is not in the catalog. -/
  unknown : (∃ name, catalog.Reaches w.installed names name ∧ catalog.contains name = false) →
    ∃ name, catalog.Reaches w.installed names name ∧ catalog.contains name = false ∧
      outcome (catalog.install names overrides) w = (.error (.unknownExtension name), w)
  /-- What is reached is added, and nothing else. -/
  installed : (outcome (catalog.install names overrides) w).1 = .ok () →
    ∀ name, name ∈ (outcome (catalog.install names overrides) w).2.installed ↔
      name ∈ w.installed ∨ catalog.Reaches w.installed names name
  /-- Installing again changes nothing. -/
  again : (outcome (catalog.install names overrides) w).1 = .ok () →
    outcome (catalog.install names overrides) (outcome (catalog.install names overrides) w).2
      = (.ok (), (outcome (catalog.install names overrides) w).2)

/-- What uninstalling does to the set of installed extensions. -/
structure Uninstalls (catalog : Catalog) (names : List String) (w : Workspace) : Prop where
  /-- It succeeds. -/
  ok : (outcome (catalog.uninstall names) w).1 = .ok ()
  /-- What was given is taken away, and nothing else. -/
  installed : ∀ name, name ∈ (outcome (catalog.uninstall names) w).2.installed ↔
    name ∈ w.installed ∧ name ∉ names

theorem uninstalls (hcatalog : catalog.Named) (names : List String)
    (h : w.Lists fs fun oo => catalog.Sorts (oo.getD Mapping.empty)) :
    catalog.Uninstalls names w := by
  obtain ⟨oo, hsorts, hw⟩ := h
  obtain ⟨w', hw', hstands⟩ := exists_outcome_uninstall hsorts hw names
  refine ⟨by rw [hw'], fun name => ?_⟩
  rw [hw', hstands.installed, mem_installedIn_unlistedAll hcatalog
    (fun _ hname => contains_of_installedIn hsorts hname) hsorts, hw.installed]
  refine and_congr_right fun hin => not_congr ?_
  exact and_iff_left hin

/-- Nothing is left to do for names that are installed. -/
theorem outcome_install_of_subset {oo : Option ConfigObject} (hw : w.Stands fs (Guard.recorded oo))
    (hnames : names ⊆ Storage.installedIn oo) :
    outcome (catalog.install names overrides) w = (.ok (), w) := by
  rw [install, outcome_bind_ok (outcome_installedExtensions hw), installOrder_of_subset hnames]
  rfl

section Plan

variable {oo : Option ConfigObject} {order : List Extension}
  (horder : catalog.installOrder (Storage.installedIn oo) names = .ok order)
include horder

theorem canBring_iff : catalog.CanBring fs overrides (Storage.installedIn oo) names ↔
    ∀ x ∈ order, (x.source overrides).Exports fs := by
  have hplan := (of_installOrder horder).2
  constructor
  · intro hall x hx
    obtain ⟨name, hname, hout, hx⟩ := (hplan x).mp hx
    exact hall name x hname hout hx
  · intro hall name x hname hout hx
    exact hall x ((hplan x).mpr ⟨name, hname, hout, hx⟩)

/-- What is planned for names is all that is reached. -/
theorem mem_installedIn_planned (hcatalog : catalog.Named) :
    name ∈ Storage.installedIn (listedAll order oo) ↔
      name ∈ Storage.installedIn oo ∨ catalog.Reaches (Storage.installedIn oo) names name := by
  obtain ⟨hreached, hplan⟩ := of_installOrder horder
  rw [mem_installedIn_listedAll]
  constructor
  · rintro (hin | ⟨x, hx, rfl⟩)
    · exact .inl hin
    · obtain ⟨n, hn, -, hx⟩ := (hplan x).mp hx
      exact .inr (hcatalog n x hx ▸ hn)
  · rintro (hin | hn)
    · exact .inl hin
    · by_cases hin : name ∈ Storage.installedIn oo
      · exact .inl hin
      · obtain ⟨x, hx⟩ := Option.isSome_iff_exists.mp ((hreached name hn).resolve_left hin)
        exact .inr ⟨x, (hplan x).mpr ⟨name, hn, hin, hx⟩, hcatalog name x hx⟩

end Plan

/-- An installation finds something unknown, or brings all that is reached, or cannot read it. -/
theorem install_cases {oo : Option ConfigObject} (hcatalog : catalog.Named)
    (hsorts : catalog.Sorts (oo.getD Mapping.empty)) (hw : w.Stands fs (Guard.recorded oo))
    (names : List String) (overrides : Option Storage) :
    (∃ name, catalog.Reaches w.installed names name ∧ catalog.contains name = false ∧
      outcome (catalog.install names overrides) w = (.error (.unknownExtension name), w)) ∨
    (∀ name, catalog.Reaches w.installed names name → catalog.contains name = true) ∧
      ((catalog.CanBring fs overrides w.installed names ∧
        ∃ w' oo', outcome (catalog.install names overrides) w = (.ok (), w') ∧
          w'.Stands fs (Guard.recorded oo') ∧ ∀ name, name ∈ w'.installed ↔
            name ∈ w.installed ∨ catalog.Reaches w.installed names name) ∨
      (¬catalog.CanBring fs overrides w.installed names ∧
        ∃ e w', outcome (catalog.install names overrides) w = (.error e, w'))) := by
  rw [hw.installed]
  cases horder : catalog.installOrder (Storage.installedIn oo) names with
  | error e =>
    obtain ⟨n, hn, -, hunknown, rfl⟩ := of_installOrder_eq_error horder
    exact .inl ⟨n, hn, hunknown, outcome_install_of_error hw horder⟩
  | ok order =>
    refine .inr ⟨fun name hname => ?_, ?_⟩
    · refine ((of_installOrder horder).1 name hname).elim (fun hin => ?_) id
      exact contains_of_installedIn hsorts hin
    · rw [canBring_iff horder]
      refine (leads_install horder w hw).imp ?_ id
      rintro ⟨u, w', hw', hstands, hall⟩
      refine ⟨hall, w', _, hw', hstands, fun name => ?_⟩
      rw [hstands.installed, mem_installedIn_planned horder hcatalog]

theorem installs (hcatalog : catalog.Named) (names : List String) (overrides : Option Storage)
    (h : w.Lists fs fun oo => catalog.Sorts (oo.getD Mapping.empty)) :
    catalog.Installs names overrides w := by
  obtain ⟨oo, hsorts, hw⟩ := h
  obtain rfl : w.files = fs := hw.1
  have hknown : (∀ name, catalog.Reaches w.installed names name → catalog.contains name = true) →
      ¬∃ name, catalog.Reaches w.installed names name ∧ catalog.contains name = false := by
    rintro hall ⟨n, hn, hunknown⟩
    rw [hall n hn] at hunknown
    cases hunknown
  rcases install_cases hcatalog hsorts hw names overrides with
    ⟨n, hn, hunknown, hrun⟩ | ⟨hall, ⟨hread, w', oo', hrun, hw', hmem⟩ | ⟨hread, e, w', hrun⟩⟩
  · refine ⟨?_, fun _ => ⟨n, hn, hunknown, hrun⟩, ?_, ?_⟩ <;> rw [hrun]
    · exact iff_of_false (by simp) fun h => hknown h.1 ⟨n, hn, hunknown⟩
    · rintro ⟨⟩
    · rintro ⟨⟩
  · refine ⟨?_, fun hunknown => absurd hunknown (hknown hall), ?_, ?_⟩ <;> rw [hrun]
    · exact iff_of_true rfl ⟨hall, hread⟩
    · exact fun _ => hmem
    · refine fun _ => outcome_install_of_subset hw' fun n hn => ?_
      rw [← hw'.installed, hmem]
      exact .inr (Reaches.of_mem hn)
  · refine ⟨?_, fun hunknown => absurd hunknown (hknown hall), ?_, ?_⟩ <;> rw [hrun]
    · exact iff_of_false (by simp) fun h => hread h.2
    · rintro ⟨⟩
    · rintro ⟨⟩

/-! ### The object that lists what is installed -/

/-- An object lists what is installed: under the word for each kind, its extensions that are
installed, each once and ascending, and nothing else. -/
structure Records (catalog : Catalog) (installed : List String) (o : ConfigObject) : Prop where
  /-- There are no other keys. -/
  keys : o.keys.Perm [.string "module", .string "theme"]
  /-- Each kind has a list of names. -/
  lists : ∀ kind : ExtensionKind, ∃ l : List String, l.Pairwise (· < ·) ∧
    (∀ name, name ∈ l ↔ name ∈ installed ∧ ∃ x, catalog.get? name = some x ∧ x.kind = kind) ∧
    o.getName? kind.word = some (Mapping.ofNames (l.map (·, .int 0))).toValue
  /-- What is installed is in the catalog. -/
  contains : ∀ name ∈ installed, catalog.contains name = true

namespace Records

variable {installed : List String}

/-- Which names an object lists for a kind. -/
theorem exists_names (h : catalog.Records installed o) (kind : ExtensionKind) :
    ∃ m : NameMap Value, o.extensionList kind = m ∧ m.entries = m.names.map (·, .int 0) ∧
      (∀ name, name ∈ m.names ↔
        name ∈ installed ∧ ∃ x, catalog.get? name = some x ∧ x.kind = kind) ∧
      o.getName? kind.word = some (Mapping.ofNames m.entries).toValue := by
  obtain ⟨l, hascending, hmem, hvalue⟩ := h.lists kind
  have hnames : (l.map (·, Value.int 0)).map Prod.fst = l := by
    rw [List.map_map]
    exact List.map_id' l
  refine ⟨⟨l.map (·, .int 0), hnames.symm ▸ hascending⟩, ?_, ?_, ?_, hvalue⟩
  · rw [ConfigObject.extensionList, hvalue, Option.bind_some]
    refine Eq.trans (congrArg NameMap.ofList ?_) (NameMap.ofList_entries _)
    show ((l.map (·, Value.int 0)).map fun e => (Value.string e.1, e.2)).filterMap _
      = l.map (·, Value.int 0)
    rw [List.filterMap_map]
    exact List.filterMap_some ..
  · exact congrArg (List.map (·, Value.int 0)) hnames.symm
  · intro name
    rw [← hmem name]
    exact iff_of_eq (congrArg (name ∈ ·) hnames)

theorem tidy (h : catalog.Records installed o) : o.Tidy where
  keys := h.keys
  lists := by
    intro kind
    obtain ⟨m, rfl, -, -, hvalue⟩ := h.exists_names kind
    exact hvalue
  zero := by
    intro kind name v hv
    obtain ⟨m, rfl, hentries, -⟩ := h.exists_names kind
    rw [← NameMap.mem_entries_iff, hentries] at hv
    obtain ⟨n, -, heq⟩ := List.mem_map.mp hv
    exact (congrArg Prod.snd heq).symm

theorem sorts (h : catalog.Records installed o) : catalog.Sorts o := by
  intro kind name hname
  obtain ⟨m, rfl, -, hmem, -⟩ := h.exists_names kind
  exact ((hmem name).mp hname).2

/-- An object that holds nothing but lists of extensions under their kinds lists what is
installed. -/
theorem of_tidy (h : o.Tidy) (hsorts : catalog.Sorts o) : catalog.Records o.installed o where
  keys := h.keys
  contains := fun _ hname => hsorts.contains hname
  lists := by
    intro kind
    refine ⟨(o.extensionList kind).names, (o.extensionList kind).ascending, fun name => ?_, ?_⟩
    · rw [ConfigObject.mem_installed_iff]
      constructor
      · intro hname
        exact ⟨⟨kind, hname⟩, hsorts kind name hname⟩
      · rintro ⟨⟨kind', hname⟩, x, hx, rfl⟩
        obtain ⟨y, hy, hkind⟩ := hsorts kind' name hname
        rw [hx] at hy
        cases hy
        exact hkind ▸ hname
    · rw [h.lists, h.entries_eq]

end Records

/-- Calls keep an object that lists what is installed and nothing else. -/
theorem preserves_tidy (hcatalog : catalog.Named) :
    catalog.Preserves fun oo => ∃ o, oo = some o ∧ o.Tidy ∧ catalog.Sorts o where
  sorts := by
    rintro oo ⟨o, rfl, -, hsorts⟩
    exact hsorts
  listed := by
    rintro name x oo installed hx ⟨o, rfl, htidy, hsorts⟩
    obtain rfl := hcatalog name x hx
    exact ⟨_, rfl, tidy_listed htidy, hsorts.listed hx installed⟩

/-- After any calls over a configuration that listed nothing to begin with, one object lists exactly
what is installed, and each further call changes that as it should. The catalog may be any that is
read from files (`Catalog.named_discover`). -/
theorem exact_after {m : Snapshot} (hcatalog : catalog.Named) (hw : w.active = .memory m)
    (ho : m.object? defaultCollection coreExtension = some o) (hnone : catalog.Records [] o)
    (calls : List InstallerCall) :
    (∃ m' o', (catalog.after calls w).active = .memory m' ∧
      m'.object? defaultCollection coreExtension = some o' ∧
      catalog.Records (catalog.after calls w).installed o') ∧
    (∀ names overrides, catalog.Installs names overrides (catalog.after calls w)) ∧
    ∀ names, catalog.Uninstalls names (catalog.after calls w) := by
  have hstart : w.Lists w.files fun oo => ∃ o, oo = some o ∧ o.Tidy ∧ catalog.Sorts o :=
    ⟨_, ⟨o, ho, hnone.tidy, hnone.sorts⟩, Workspace.stands_recorded hw⟩
  obtain ⟨oo, ⟨o', rfl, htidy, hsorts⟩, hstands⟩ :=
    lists_after (preserves_tidy hcatalog) hstart calls
  have hlists : (catalog.after calls w).Lists w.files
      fun oo => catalog.Sorts (oo.getD Mapping.empty) := ⟨some o', hsorts, hstands⟩
  refine ⟨?_, fun names overrides => installs hcatalog names overrides hlists,
    fun names => uninstalls hcatalog names hlists⟩
  rw [hstands.installed]
  obtain ⟨-, m', hm', hobeys⟩ := hstands
  exact ⟨m', o', hm', hobeys defaultCollection coreExtension rfl rfl,
    Records.of_tidy htidy hsorts⟩

/-- Two modules, one of which requires the other, and a theme. -/
def blogs : Catalog := NameMap.ofList [
  ("blog", { name := "blog", kind := .module, dependencies := ["text"] }),
  ("plain", { name := "plain", kind := .theme }),
  ("text", {
    name := "text", kind := .module
    defaults := .view (Snapshot.ofList [("", "text.settings", Mapping.empty)]) })]

/-- The object that lists nothing as installed. -/
def nothingListed : ConfigObject := Mapping.ofNames [("module", .map []), ("theme", .map [])]

/-- A configuration with nothing installed. -/
def blank : Snapshot := Snapshot.ofList [(defaultCollection, coreExtension, nothingListed)]

/-- A site with nothing installed, beside a directory with a document that cannot be read. -/
def blankSite : Workspace where
  files := { tree := .dir [("o", .dir [("text.settings.yml", .file (.text "x: [\n"))])] }
  active := .memory blank

theorem named_blogs : blogs.Named := by
  decide

theorem records_nothingListed : catalog.Records [] nothingListed where
  keys := List.Perm.refl _
  contains := by simp
  lists := by
    intro kind
    refine ⟨[], List.Pairwise.nil, by simp, ?_⟩
    cases kind <;> rfl

theorem exact_after_blogs :
    (blogs.Named ∧ blankSite.active = .memory blank ∧
      blank.object? defaultCollection coreExtension = some nothingListed ∧
      blogs.Records [] nothingListed) ∧
    let w := blogs.after [.install ["blog"] none, .install ["blog", "plain"] none,
      .uninstall ["text"]] blankSite
    w.installed = ["blog", "plain"] ∧
    (∃ m o, w.active = .memory m ∧ m.object? defaultCollection coreExtension = some o ∧
      blogs.Records w.installed o) ∧
    (∀ names overrides, blogs.Installs names overrides w) ∧ ∀ names, blogs.Uninstalls names w := by
  refine ⟨⟨named_blogs, rfl, rfl, records_nothingListed⟩, by decide +kernel, ?_⟩
  exact exact_after named_blogs rfl rfl records_nothingListed _

/-- Knowing all that is reached is not enough: what is put in the place of default configuration has
to be readable too. -/
theorem not_installed_for_unreadable :
    (blogs.Named ∧ blankSite.active = .memory blank ∧
      blank.object? defaultCollection coreExtension = some nothingListed ∧
      blogs.Records [] nothingListed) ∧
    (∀ name, blogs.Reaches blankSite.installed ["text"] name → blogs.contains name = true) ∧
    (outcome (blogs.install ["text"] (some (.directory ⟨"/o"⟩))) blankSite).1 ≠ .ok () := by
  refine ⟨⟨named_blogs, rfl, rfl, records_nothingListed⟩, ?_, ?_⟩
  · have hplan : ∃ order, blogs.installOrder blankSite.installed ["text"] = .ok order ∧ True := by
      decide +kernel
    obtain ⟨order, horder, -⟩ := hplan
    have hnone : blankSite.installed = [] := by decide +kernel
    rw [hnone] at horder ⊢
    intro name hname
    exact ((of_installOrder horder).1 name hname).resolve_left List.not_mem_nil
  · intro hok
    have hfails : (outcome (blogs.install ["text"] (some (.directory ⟨"/o"⟩)))
        blankSite).1.toBool = false := by decide +kernel
    rw [hok] at hfails
    cases hfails

end Catalog

end Cookbook
