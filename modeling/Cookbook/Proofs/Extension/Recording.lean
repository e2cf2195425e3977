import Cookbook.Proofs.Extension.Planning
import Cookbook.Proofs.Extension.Succeeding

/-!
# What installing and uninstalling record

One object of the configuration lists what is installed. Bringing default configuration never puts
another one in its place, because by then it is there, and dropping what an extension owns passes it
over. So what a call does to that object is a fold of `Catalog.listed`, one extension after the
other, and what is installed afterwards can be computed from that fold alone.

Uninstalling takes a name out of the list of one kind. It is gone from the object only if no other
list has it as well, and that is where it matters that each name is listed under the kind that the
catalog has for it.

## Main definitions

* `Workspace.installed`: what is listed as installed.
* `Guard.recorded`, `Workspace.Lists`: the object that lists it is a given one, or has a property.
* `Catalog.Named`, `Catalog.Sorts`: catalogs by name, and lists that are sorted by kind.
* `Catalog.listedAll`, `Catalog.unlistedAll`: an object in which several extensions were listed, or
  taken out.

## Main results

* `Catalog.leads_install`, `Catalog.leads_uninstall`: what the calls do to the object.
* `Catalog.keeps_lists_install`: what holds of the object also when an installation fails.
* `Catalog.named_discover`: catalogs that are read from files.
* `Catalog.mem_installedIn_listedAll`, `Catalog.mem_installedIn_unlistedAll`: what is installed
  then.
-/

namespace Cookbook

open Change

/-! ### The object that lists what is installed -/

/-- The names of the extensions that are listed as installed, ascending. -/
def Workspace.installed (w : Workspace) : List String :=
  match w.active.installedExtensions w.files with
  | .ok names => names
  | .error _ => []

/-- The object that lists the installed extensions is a given one, or is missing. -/
def Guard.recorded (oo : Option ConfigObject) : Guard :=
  fun c name oo' => c = defaultCollection → name = coreExtension → oo' = oo

namespace Workspace

/-- The files are known, and the object in memory that lists the installed extensions, if there is
one, has a property. -/
def Lists (fs : Files) (I : Option ConfigObject → Prop) (w : Workspace) : Prop :=
  ∃ oo, I oo ∧ w.Stands fs (Guard.recorded oo)

variable {w : Workspace} {m : Snapshot} {fs : Files} {oo : Option ConfigObject}

theorem installed_of_active (h : w.active = .memory m) : w.installed = m.installed := by
  rw [installed, h, (Storage.Shows.memory m).installedExtensions]

theorem Stands.installed (h : w.Stands fs (Guard.recorded oo)) :
    w.installed = Storage.installedIn oo := by
  obtain ⟨-, m, hm, hobeys⟩ := h
  rw [installed_of_active hm, Snapshot.installed, hobeys defaultCollection coreExtension rfl rfl]

theorem Stands.over {G : Guard} (h : w.Stands fs G) : w.Over fs := ⟨h.2.inMemory, h.1⟩

theorem stands_recorded (h : w.active = .memory m) :
    w.Stands w.files (Guard.recorded (m.object? defaultCollection coreExtension)) := by
  refine ⟨rfl, m, h, ?_⟩
  rintro c name rfl rfl
  rfl

end Workspace

namespace Catalog

variable {catalog : Catalog} {fs : Files} {oo : Option ConfigObject} {o : ConfigObject}
  {x : Extension} {order : List Extension} {names installed : List String} {name : String}
  {overrides : Option Storage} {E : Prop}

/-! ### Single steps -/

/-- Recording an extension lists it in the object, or in an empty one. -/
theorem leads_record (x : Extension) (installed : Bool) (oo : Option ConfigObject) :
    Leads (Workspace.Stands fs (Guard.recorded oo)) (record x installed)
      (fun _ => Workspace.Stands fs
        (Guard.recorded (some (listed x installed (oo.getD Mapping.empty))))) E := by
  rintro w ⟨hfs, m, hm, hobeys⟩
  have hread : outcome (ConfigM.read? none coreExtension) w = (.ok oo, w) := by
    rw [ConfigM.outcome_read? hm, Storage.collectionOf, Option.getD_none,
      ← hobeys defaultCollection coreExtension rfl rfl]
  have hrecord := (outcome_bind_ok (f := fun oo => ConfigM.write none coreExtension
    (listed x installed (oo.getD Mapping.empty))) hread).trans (ConfigM.outcome_write hm)
  refine .inl ⟨(), _, hrecord, hfs, _, rfl, ?_⟩
  rintro c name rfl rfl
  rw [Snapshot.object?_putObject, if_pos ⟨rfl, rfl⟩]

/-- Default configuration is brought to free places only, so an object that is there stays. -/
theorem keeps_recorded_bringDefaults (x : Extension) (overrides : Option Storage) :
    Keeps (Workspace.Stands fs (Guard.recorded (some o))) (bringDefaults x overrides)
      fun _ => True := by
  refine stands_bringDefaults fun hfree _ hc hname => ?_
  cases hfree hc hname

theorem leads_recorded_bringDefaults (x : Extension) (overrides : Option Storage) :
    Leads (Workspace.Stands fs (Guard.recorded (some o))) (bringDefaults x overrides)
      (fun _ w => w.Stands fs (Guard.recorded (some o)) ∧ (x.source overrides).Exports fs)
      (¬(x.source overrides).Exports fs) := by
  intro w hw
  refine ((leads_bringDefaults x overrides).keeping
    (keeps_recorded_bringDefaults x overrides)).mono ?_ id w ⟨hw.over, hw⟩
  rintro u w' ⟨⟨-, hread⟩, hw'⟩
  exact ⟨hw', hread⟩

theorem leads_collectionNames :
    Leads (Workspace.Stands fs (Guard.recorded oo)) ConfigM.collectionNames
      (fun _ => Workspace.Stands fs (Guard.recorded oo)) E := by
  rintro w ⟨hfs, m, hm, hobeys⟩
  exact .inl ⟨m.collectionNames, w, ConfigM.outcome_collectionNames hm, hfs, m, hm, hobeys⟩

theorem leads_dropOwned (x : Extension) (c : String) :
    Leads (Workspace.Stands fs (Guard.recorded oo)) (dropOwned x c)
      (fun _ => Workspace.Stands fs (Guard.recorded oo)) E := by
  have hdrop : Keeps (Workspace.Obeys (Guard.recorded oo)) (dropOwned x c) fun _ => True :=
    keeps_dropOwned (fun hne _ hname => absurd hname hne) c
  intro w hw
  obtain ⟨u, w', hw', hover, hobeys⟩ :=
    ((succeeds_dropOwned x c).keeping hdrop).exists_ok not_false ⟨hw.over, hw.2⟩
  exact .inl ⟨u, w', hw', hover.2, hobeys⟩

/-! ### Whole changes -/

/-- An object in which extensions were listed one after the other. -/
def listedAll (order : List Extension) (oo : Option ConfigObject) : Option ConfigObject :=
  order.foldl (fun oo x => some (listed x true (oo.getD Mapping.empty))) oo

/-- An object from which installed extensions were taken out one after the other. -/
def unlistedAll (catalog : Catalog) (installed names : List String) (oo : Option ConfigObject) :
    Option ConfigObject :=
  names.foldl (fun oo name =>
    if installed.contains name then
      match catalog.get? name with
      | some x => some (listed x false (oo.getD Mapping.empty))
      | none => oo
    else oo) oo

/-- What is installed is read from the object that lists it. -/
theorem outcome_installedExtensions {w : Workspace} (hw : w.Stands fs (Guard.recorded oo)) :
    outcome ConfigM.installedExtensions w = (.ok (Storage.installedIn oo), w) := by
  obtain ⟨-, m, hm, hobeys⟩ := hw
  rw [ConfigM.installedExtensions, ConfigM.outcome_ask, hm,
    (Storage.Shows.memory m).installedExtensions, hobeys defaultCollection coreExtension rfl rfl]

theorem leads_installedExtensions :
    Leads (Workspace.Stands fs (Guard.recorded oo)) ConfigM.installedExtensions
      (fun installed w => installed = Storage.installedIn oo ∧
        w.Stands fs (Guard.recorded oo)) E :=
  fun w hw => .inl ⟨Storage.installedIn oo, w, outcome_installedExtensions hw, rfl, hw⟩

/-- Installing lists what was planned and brings its default configuration, which can all be read
if there is no failure. -/
theorem leads_install
    (horder : catalog.installOrder (Storage.installedIn oo) names = .ok order) :
    Leads (Workspace.Stands fs (Guard.recorded oo)) (catalog.install names overrides)
      (fun _ w => w.Stands fs (Guard.recorded (listedAll order oo)) ∧
        ∀ x ∈ order, (x.source overrides).Exports fs)
      (¬∀ x ∈ order, (x.source overrides).Exports fs) := by
  refine leads_installedExtensions.bind ?_
  rintro installed w ⟨rfl, hw⟩
  rw [horder]
  refine Leads.forM_all (V := fun oo => Workspace.Stands fs (Guard.recorded oo))
    (R := fun x : Extension => (x.source overrides).Exports fs) (fun x hx oo => ?_) oo w hw
  refine (leads_record x true oo).bind fun _ w hw => ?_
  exact (leads_recorded_bringDefaults x overrides).mono (fun _ _ hw => hw)
    (fun hnone hall => hnone (hall x hx)) w hw

/-- Nothing is changed if there is no plan. -/
theorem outcome_install_of_error {w : Workspace} {e : Error}
    (hw : w.Stands fs (Guard.recorded oo))
    (he : catalog.installOrder (Storage.installedIn oo) names = .error e) :
    outcome (catalog.install names overrides) w = (.error e, w) := by
  rw [install, outcome_bind_ok (outcome_installedExtensions hw), he]
  rfl

/-- Uninstalling takes out what is installed, if the catalog has it. -/
theorem leads_uninstall
    (hknown : ∀ name ∈ Storage.installedIn oo, catalog.contains name = true) :
    Leads (Workspace.Stands fs (Guard.recorded oo)) (catalog.uninstall names)
      (fun _ => Workspace.Stands fs
        (Guard.recorded (catalog.unlistedAll (Storage.installedIn oo) names oo))) E := by
  refine leads_installedExtensions.bind ?_
  rintro installed w ⟨rfl, hw⟩
  refine Leads.forM (V := fun oo => Workspace.Stands fs (Guard.recorded oo))
    (fun name _ oo' => ?_) oo w hw
  split
  · rename_i hin
    obtain ⟨x, hx⟩ := Option.isSome_iff_exists.mp (hknown name (by simpa using hin))
    rw [hx]
    dsimp only
    refine leads_collectionNames.bind fun others => Leads.bind ?_ fun _ => leads_record x false oo'
    exact Leads.forM (V := fun _ : Unit => Workspace.Stands fs (Guard.recorded oo'))
      (g := fun t _ => t) (fun c _ _ => leads_dropOwned x c) ()
  · exact Leads.pure fun _ hw => hw

/-- What holds of the object that lists what is installed, and is kept when an extension of the
catalog is listed, still holds after an installation, also if that failed half way. -/
theorem keeps_lists_install {I : Option ConfigObject → Prop}
    (hlisted : ∀ name x oo, catalog.get? name = some x → I oo →
      I (some (listed x true (oo.getD Mapping.empty)))) :
    Keeps (Workspace.Lists fs I) (catalog.install names overrides) fun _ => True := by
  have hask : Keeps (Workspace.Lists fs I) ConfigM.installedExtensions fun _ => True := by
    intro w hw
    rw [ConfigM.installedExtensions, ConfigM.outcome_ask]
    exact ⟨hw, fun _ _ => trivial⟩
  refine hask.bind fun installed _ => ?_
  refine Keeps.bind (R := fun order => ∀ x ∈ order, ∃ name, catalog.get? name = some x)
    (Keeps.ofExcept fun order horder x hx => ?_) fun order horder => Keeps.forM fun x hx => ?_
  · obtain ⟨name, hname, -⟩ := mem_installOrder horder hx
    exact ⟨name, hname⟩
  · rintro w ⟨oo, hoo, hw⟩
    obtain ⟨name, hname⟩ := horder x hx
    obtain ⟨u, w', hrecord, hw'⟩ := (leads_record x true oo (E := False)).exists_ok not_false hw
    rw [outcome_bind_ok hrecord]
    refine ⟨⟨_, hlisted name x oo hname hoo, ?_⟩, fun _ _ => trivial⟩
    exact (keeps_recorded_bringDefaults x overrides w' hw').1

/-! ### What is installed then -/

/-- A catalog has each extension under its name, as one has that is read from files
(`Catalog.named_discover`). -/
def Named (catalog : Catalog) : Prop := ∀ name x, catalog.get? name = some x → x.name = name

/-- What an object lists is in the catalog, each name under its kind. -/
def Sorts (catalog : Catalog) (o : ConfigObject) : Prop :=
  ∀ kind name, name ∈ (o.extensionList kind).names →
    ∃ x, catalog.get? name = some x ∧ x.kind = kind

theorem named_iff : catalog.Named ↔ catalog.entries.all (fun e => e.2.name == e.1) = true := by
  rw [NameMap.all_entries_iff]
  simp only [Named, beq_iff_eq]

instance decidableNamed : Decidable catalog.Named := decidable_of_iff _ named_iff.symm

theorem Named.insert (h : catalog.Named) (x : Extension) : Named (catalog.insert x.name x) := by
  intro name y hy
  rw [NameMap.get?_insert] at hy
  split at hy
  · rename_i heq
    rw [← Option.some.inj hy, heq]
  · exact h name y hy

/-- A catalog that was read from files has each extension under its name. -/
theorem named_discover {root : Path} (h : discover fs root = .ok catalog) : catalog.Named := by
  refine Except.foldlM_invariant (P := Named) ?_ (fun _ _ h => by cases h) h
  intro found hfound file _ found' hstep
  obtain ⟨x, -, hstep⟩ := Except.bind_eq_ok_iff.mp hstep
  cases hstep
  split
  · exact hfound
  · exact hfound.insert x

theorem installedIn_eq (oo : Option ConfigObject) :
    Storage.installedIn oo = (oo.getD Mapping.empty).installed := by
  cases oo with
  | none => rfl
  | some o => rfl

theorem mem_installedIn_listedAll : name ∈ Storage.installedIn (listedAll order oo) ↔
    name ∈ Storage.installedIn oo ∨ ∃ x ∈ order, x.name = name := by
  induction order generalizing oo with
  | nil => simp [listedAll]
  | cons x order ih =>
    have hfirst : listedAll (x :: order) oo
        = listedAll order (some (listed x true (oo.getD Mapping.empty))) := rfl
    rw [hfirst, ih, installedIn_eq, Option.getD_some, mem_installed_listed, ← installedIn_eq,
      List.exists_mem_cons_iff, eq_comm, or_comm (a := x.name = name), or_assoc]

theorem Sorts.contains (h : catalog.Sorts o) (hname : name ∈ o.installed) :
    catalog.contains name = true := by
  obtain ⟨kind, hname⟩ := ConfigObject.mem_installed_iff.mp hname
  obtain ⟨x, hx, -⟩ := h kind name hname
  rw [NameMap.contains, hx]
  rfl

/-- What is listed is sorted by kind again. -/
theorem Sorts.listed (h : catalog.Sorts o) (hx : catalog.get? x.name = some x) (installed : Bool) :
    catalog.Sorts (listed x installed o) := by
  intro kind name hname
  rw [extensionList_listed, mem_names_relisted] at hname
  split at hname
  · rename_i heq
    exact ⟨x, heq.2 ▸ hx, heq.1.symm⟩
  · exact h kind name hname

/-- Taking an extension out of the list of its kind takes out its name, since no other list has
it. -/
theorem Sorts.mem_installed_unlisted (h : catalog.Sorts o) (hx : catalog.get? x.name = some x) :
    name ∈ (Catalog.listed x false o).installed ↔ name ∈ o.installed ∧ name ≠ x.name := by
  simp only [ConfigObject.mem_installed_iff, extensionList_listed, mem_names_relisted]
  constructor
  · rintro ⟨kind, hname⟩
    split at hname
    · cases hname
    · rename_i hne
      refine ⟨⟨kind, hname⟩, ?_⟩
      rintro rfl
      obtain ⟨y, hy, hkind⟩ := h kind _ hname
      rw [hx] at hy
      cases hy
      exact hne ⟨hkind.symm, rfl⟩
  · rintro ⟨⟨kind, hname⟩, hne⟩
    refine ⟨kind, ?_⟩
    rwa [if_neg fun heq => hne heq.2]

/-- Of the names that are given, those that are installed are taken out. -/
theorem mem_installedIn_unlistedAll (hcatalog : catalog.Named)
    (hknown : ∀ name ∈ installed, catalog.contains name = true)
    (h : catalog.Sorts (oo.getD Mapping.empty)) :
    name ∈ Storage.installedIn (catalog.unlistedAll installed names oo) ↔
      name ∈ Storage.installedIn oo ∧ ¬(name ∈ names ∧ name ∈ installed) := by
  induction names generalizing oo with
  | nil => simp [unlistedAll]
  | cons n names ih =>
    by_cases hn : n ∈ installed
    · obtain ⟨x, hx⟩ := Option.isSome_iff_exists.mp (hknown n hn)
      obtain rfl := hcatalog n x hx
      have hfirst : catalog.unlistedAll installed (x.name :: names) oo
          = catalog.unlistedAll installed names
            (some (listed x false (oo.getD Mapping.empty))) := by
        simp [unlistedAll, hn, hx]
      have hlisted : catalog.Sorts
          ((some (listed x false (oo.getD Mapping.empty))).getD Mapping.empty) :=
        h.listed hx false
      rw [hfirst, ih hlisted, installedIn_eq, Option.getD_some,
        h.mem_installed_unlisted hx, ← installedIn_eq]
      grind
    · have hfirst : catalog.unlistedAll installed (n :: names) oo
          = catalog.unlistedAll installed names oo := by
        simp [unlistedAll, hn]
      rw [hfirst, ih h]
      grind

end Catalog

end Cookbook
