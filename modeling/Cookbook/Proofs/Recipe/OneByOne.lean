import Cookbook.Proofs.Extension.Bringing
import Cookbook.Proofs.Recipe.InstallPlan
import Cookbook.Recipe.Run

/-!
# Installing extensions one by one

A recipe installs what it plans one extension after the other, and each of these installations plans
again, from what is installed by then. An installation of all at once plans a single time. Both bring
the same default configuration in the same order, if no single installation has anything left to
plan but the extension it is for.

## Why nothing is left

An extension is not installed when its turn comes, since a plan has each name once. What it requires
is installed, because the plan has that before it. In the order of going through the extensions that
is so as long as nothing leads back to itself. Putting the modules first takes this order apart, but
only a theme and a module can change places, and then the module does not require the theme.

With a circle the two are different: the first extension of the circle brings the others with it,
and after it.

## Main definitions

* `Catalog.Layered`: no circles, and no module requires a theme.
* `Catalog.Misses`: an extension requires one that is not installed.
* `Catalog.Schedules`: names can be installed in an order.
* `Catalog.setUp`: what is done for a planned extension.

## Main results

* `Catalog.schedules_withRequirements`, `InstallPlan.schedules_of_ofExtensions`: what is planned can
  be installed in that order.
* `Catalog.outcome_install_singleton`: what is left to do for a single extension.
* `Catalog.outcome_forM_install`: the rest of an order, one by one.
* `InstallPlan.installed_at_once`: a whole plan, one by one and at once.
-/

namespace Cookbook

open Change
open Relation (TransGen)

namespace Catalog

variable {catalog : Catalog} {installed names found : List String} {fs : Files} {w : Workspace}
  {overrides : Option Storage} {x : Extension} {oo : Option ConfigObject}

/-- Nothing requires itself, not even through other extensions, and no module requires a theme. -/
structure Layered (catalog : Catalog) : Prop where
  /-- There are no circles. -/
  acyclic : ∀ name, ¬TransGen catalog.Needs name name
  /-- What modules require are modules. -/
  modules : ∀ a x b y, catalog.get? a = some x → x.kind = .module → catalog.Needs a b →
    catalog.get? b = some y → y.kind = .module

/-- An extension requires one that is not installed. -/
def Misses (catalog : Catalog) (installed : List String) (a b : String) : Prop :=
  catalog.Needs a b ∧ b ∉ installed

/-- A rank that falls with every requirement, and modules that require modules, can be checked. -/
theorem Layered.of_rank (rank : String → Nat)
    (hrank : catalog.entries.all (fun e =>
      e.2.requirements.all fun b => decide (rank b < rank e.1)) = true)
    (hmodules : catalog.entries.all (fun e => e.2.kind = .theme ||
      e.2.requirements.all fun b => (catalog.get? b).all (·.kind = .module)) = true) :
    catalog.Layered where
  acyclic := by
    have hfalls : ∀ a b, catalog.Needs a b → rank b < rank a := by
      rintro a b ⟨x, hx, hb⟩
      simpa using List.all_eq_true.mp (NameMap.all_entries_iff.mp hrank a x hx) b hb
    have hall : ∀ a b, TransGen catalog.Needs a b → rank b < rank a := by
      intro a b hreach
      induction hreach with
      | single hstep => exact hfalls _ _ hstep
      | tail _ hstep ih => exact Nat.lt_trans (hfalls _ _ hstep) ih
    exact fun name hcircle => Nat.lt_irrefl _ (hall name name hcircle)
  modules := by
    rintro a x b y hx hkind ⟨x', hx', hb⟩ hy
    rw [hx] at hx'
    cases hx'
    have hchecked := NameMap.all_entries_iff.mp hmodules a x hx
    simp only [hkind, Bool.or_eq_true, decide_eq_true_eq, reduceCtorEq, false_or,
      List.all_eq_true] at hchecked
    simpa [hy] using hchecked b hb

/-- Names can be installed in an order: the catalog has each, once and after what it requires, and
none is installed yet. -/
structure Schedules (catalog : Catalog) (installed l : List String) : Prop where
  needsFirst : NeedsFirst (catalog.Misses installed) l
  nodup : l.Nodup
  fresh : ∀ n ∈ l, n ∉ installed
  known : ∀ n ∈ l, ∃ x, catalog.get? n = some x

/-! ### The order -/

/-- Without circles an installation goes through extensions in an order in which they can be
installed. -/
theorem schedules_withRequirements (hcatalog : catalog.Layered)
    (h : catalog.withRequirements installed names = .ok found) :
    catalog.Schedules installed found := by
  have hordered :=
    Postorder.ordered_of_visitAll catalog.mem_names_of_requires catalog.length_names_lt h
  have hmem : ∀ n ∈ found, n ∉ installed ∧ ∃ x, catalog.get? n = some x := by
    intro n hn
    obtain ⟨required, hneeds⟩ := Postorder.needs_of_mem_visitAll h hn
    obtain ⟨hout, x, hx, -⟩ := requires_eq_some_iff.mp hneeds
    exact ⟨hout, x, hx⟩
  refine ⟨?_, hordered.nodup, fun n hn => (hmem n hn).1, fun n hn => (hmem n hn).2⟩
  rintro before a after rfl b ⟨hneeds, hout⟩
  have ha : a ∈ before ++ a :: after := List.mem_append_right _ (List.mem_cons_self ..)
  have hstep : Postorder.Needs (catalog.requires installed) a b :=
    needs_requires_iff.mpr ⟨(hmem a ha).1, hneeds⟩
  -- What is required was gone through as well.
  have hlisted : ∃ required, catalog.requires installed b = .ok (some required) := by
    obtain ⟨⟨start, hstart, hreach⟩, -⟩ := (Postorder.mem_of_visitAll_iff
      catalog.mem_names_of_requires catalog.length_names_lt h).mp ha
    rcases Postorder.seen_of_visitAll catalog.mem_names_of_requires catalog.length_names_lt h
      hstart (hreach.tail hstep) with hnone | hmem
    · exact absurd (requires_eq_none_iff.mp hnone) hout
    · exact Postorder.needs_of_mem_visitAll h hmem
  refine (hordered.needsFirst before a after rfl b hstep hlisted).resolve_right fun hback => ?_
  have hback' : TransGen catalog.Needs b a :=
    hback.lift id fun _ _ hnext => (needs_requires_iff.mp hnext).2
  exact hcatalog.acyclic a (.head hneeds hback')

/-- The modules can be installed before the themes. -/
theorem Schedules.modulesFirst (hcatalog : catalog.Layered) (h : catalog.Schedules installed found) :
    catalog.Schedules installed
      (found.filter (fun n => !(catalog.get? n).any (·.kind = .theme))
        ++ found.filter fun n => (catalog.get? n).any (·.kind = .theme)) := by
  have hperm := List.perm_append_comm.trans
    (List.filter_append_perm (fun n => (catalog.get? n).any (·.kind = .theme)) found)
  refine ⟨h.needsFirst.partition h.nodup ?_, hperm.nodup_iff.mpr h.nodup,
    fun n hn => h.fresh n (hperm.mem_iff.mp hn), fun n hn => h.known n (hperm.mem_iff.mp hn)⟩
  intro a ha hmodule b hb hmisses
  obtain ⟨x, hx⟩ := h.known a ha
  obtain ⟨y, hy⟩ := h.known b hb
  rw [hx, Option.any_some, decide_eq_false_iff_not] at hmodule
  have hkind : x.kind = .module := by
    cases hkind : x.kind with
    | module => rfl
    | theme => exact absurd hkind hmodule
  simp [hy, hcatalog.modules a x b y hx hkind hmisses.1 hy]

/-! ### Single extensions -/

/-- Nothing is planned but the extension itself if all it requires is installed. -/
theorem installOrder_singleton {name : String} (hx : catalog.get? name = some x)
    (hout : name ∉ installed) (hall : ∀ b, catalog.Needs name b → b ∈ installed) :
    catalog.installOrder installed [name] = .ok [x] := by
  have hvisit : catalog.withRequirements installed [name] = .ok [name] := by
    refine Postorder.visitAll_singleton (requires_eq_some_iff.mpr ⟨hout, x, hx, rfl⟩) ?_
    exact fun b hb => requires_eq_none_iff.mpr (hall b ⟨x, hx, hb⟩)
  rw [installOrder, hvisit]
  cases hkind : x.kind <;> simp [hx, hkind, Except.bind, bind, pure, Except.pure]

/-- What an installation does for each extension that it has planned. -/
def setUp (overrides : Option Storage) (x : Extension) : ConfigM Unit := do
  record x true
  bringDefaults x overrides

/-- An extension that is set up is listed, unless this fails. -/
theorem leads_setUp (overrides : Option Storage) (x : Extension) (oo : Option ConfigObject) :
    Leads (Workspace.Stands fs (Guard.recorded oo)) (setUp overrides x)
      (fun _ => Workspace.Stands fs (Guard.recorded (some (listed x true (oo.getD Mapping.empty)))))
      True := by
  refine (leads_record x true oo).bind fun _ => ?_
  exact (leads_recorded_bringDefaults x overrides).mono (fun _ _ hw => hw.1) fun _ => trivial

/-- An installation follows its plan. -/
theorem outcome_install_of_ok {order : List Extension} (hw : w.Stands fs (Guard.recorded oo))
    (horder : catalog.installOrder (Storage.installedIn oo) names = .ok order) :
    outcome (catalog.install names overrides) w = outcome (order.forM (setUp overrides)) w := by
  rw [install, outcome_bind_ok (outcome_installedExtensions hw), horder]
  rfl

/-- For a single extension that is not installed, only this one is set up if all it requires is
installed. -/
theorem outcome_install_singleton {name : String} (hw : w.Stands fs (Guard.recorded oo))
    (hx : catalog.get? name = some x) (hout : name ∉ Storage.installedIn oo)
    (hall : ∀ b, catalog.Needs name b → b ∈ Storage.installedIn oo) :
    outcome (catalog.install [name] overrides) w = outcome (setUp overrides x) w := by
  rw [outcome_install_of_ok hw (installOrder_singleton hx hout hall), outcome_forM_cons]
  rcases outcome (setUp overrides x) w with ⟨_ | ⟨⟩, w'⟩ <;> rfl

/-- **One by one.** The rest of an order goes the same way whether it is planned again for each
extension or not. -/
theorem outcome_forM_install (hcatalog : catalog.Named) {before rest : List String}
    (h : catalog.Schedules installed (before ++ rest)) (hw : w.Stands fs (Guard.recorded oo))
    (hinstalled : ∀ n, n ∈ Storage.installedIn oo ↔ n ∈ installed ∨ n ∈ before) :
    outcome (rest.forM fun n => catalog.install [n] overrides) w
      = outcome ((rest.filterMap catalog.get?).forM (setUp overrides)) w := by
  induction rest generalizing before oo w with
  | nil => rfl
  | cons n rest ih =>
    have hmem : n ∈ before ++ n :: rest := List.mem_append_right _ (List.mem_cons_self ..)
    obtain ⟨x, hx⟩ := h.known n hmem
    have hout : n ∉ Storage.installedIn oo := by
      rw [hinstalled, not_or]
      refine ⟨h.fresh n hmem, fun hbefore => ?_⟩
      exact (List.nodup_append.mp h.nodup).2.2 n hbefore n (List.mem_cons_self ..) rfl
    have hall : ∀ b, catalog.Needs n b → b ∈ Storage.installedIn oo := by
      intro b hneeds
      rw [hinstalled]
      by_cases hb : b ∈ installed
      · exact .inl hb
      · exact .inr (h.needsFirst before n rest rfl b ⟨hneeds, hb⟩)
    rw [List.filterMap_cons_some hx, outcome_forM_cons, outcome_forM_cons,
      outcome_install_singleton hw hx hout hall]
    rcases leads_setUp overrides x oo w hw with ⟨_, w', hstep, hw'⟩ | ⟨-, e, w', hstep⟩
    · rw [hstep]
      -- The extension is listed now, and the rest goes on from there.
      have hrest : catalog.Schedules installed ((before ++ [n]) ++ rest) := by
        rwa [List.append_assoc]
      refine ih hrest hw' fun k => ?_
      have hlisted : k ∈ Storage.installedIn (listedAll [x] oo) ↔
        k ∈ Storage.installedIn oo ∨ ∃ y ∈ [x], y.name = k := mem_installedIn_listedAll
      rw [show listedAll [x] oo = some (listed x true (oo.getD Mapping.empty)) from rfl] at hlisted
      rw [hlisted, hinstalled]
      simp [hcatalog n x hx, or_assoc, eq_comm]
    · rw [hstep]

end Catalog

namespace InstallPlan

variable {catalog : Catalog} {installed names : List String} {p : InstallPlan} {w : Workspace}

/-- What is planned can be installed in the order of the plan. -/
theorem schedules_of_ofExtensions (hlayered : catalog.Layered)
    (h : ofExtensions catalog installed names = .ok p) :
    catalog.Schedules installed (p.modules ++ p.themes) := by
  obtain ⟨found, hfound, h⟩ := Except.bind_eq_ok_iff.mp h
  rw [collectAll_eq] at hfound
  cases h
  exact (Catalog.schedules_withRequirements hlayered hfound).modulesFirst hlayered

/-- Installing the modules and then the themes of a plan one by one does what installing all at once
does, also if it fails: nothing leads back to itself in the catalog, and no module requires a
theme. That its extensions are under their names is so for every catalog that is read from files
(`Catalog.named_discover`). -/
theorem installed_at_once (hcatalog : catalog.Named) (hlayered : catalog.Layered)
    (hw : w.InMemory) (hplain : ∀ n ∈ names, Extension.dependencyName n = n)
    (h : ofExtensions catalog w.installed names = .ok p) (overrides : Option Storage) :
    outcome ((p.modules ++ p.themes).forM fun n => catalog.install [n] overrides) w
      = outcome (catalog.install names overrides) w := by
  obtain ⟨m, hm⟩ := Workspace.inMemory_iff.mp hw
  have hstands := Workspace.stands_recorded hm
  have hinstalled : w.installed = Storage.installedIn (m.object? defaultCollection coreExtension) :=
    hstands.installed
  have hnames : names.map Extension.dependencyName = names := by
    simpa using List.map_congr_left hplain
  rw [hinstalled] at h
  have horder := installOrder_of_ofExtensions hcatalog h
  rw [hnames] at horder
  rw [Catalog.outcome_install_of_ok hstands horder]
  have hschedules : catalog.Schedules
      (Storage.installedIn (m.object? defaultCollection coreExtension))
      ([] ++ (p.modules ++ p.themes)) := schedules_of_ofExtensions hlayered h
  exact Catalog.outcome_forM_install hcatalog hschedules hstands (by simp)

/-- A theme and the modules that it leads to, all of which ship the same note. -/
def noteThemes : Catalog := NameMap.ofList [
  ("blog", Catalog.blogModule),
  ("paper", {
    name := "paper", kind := .theme, dependencies := ["blog"]
    defaults := .view (Snapshot.ofList [
      (defaultCollection, "site.note", Mapping.ofNames [("by", .string "paper")])]) }),
  ("text", Catalog.textModule)]

theorem installed_at_once_noteThemes :
    (noteThemes.Named ∧ noteThemes.Layered ∧ Catalog.bareSite.InMemory ∧
      ∀ n ∈ ["paper"], Extension.dependencyName n = n) ∧
    ∃ p, ofExtensions noteThemes Catalog.bareSite.installed ["paper"] = .ok p ∧
      p.modules ++ p.themes = ["text", "blog", "paper"] ∧
      (outcome (noteThemes.install ["paper"] none) Catalog.bareSite).1.toBool = true ∧
      outcome ((p.modules ++ p.themes).forM fun n => noteThemes.install [n] none) Catalog.bareSite
        = outcome (noteThemes.install ["paper"] none) Catalog.bareSite := by
  have hcatalog : noteThemes.Named := by decide
  have hlayered : noteThemes.Layered :=
    .of_rank (fun name => ["text", "blog", "paper"].idxOf name) (by decide) (by decide)
  have hw : Catalog.bareSite.InMemory := Workspace.inMemory_iff.mpr ⟨_, rfl⟩
  have hplain : ∀ n ∈ ["paper"], Extension.dependencyName n = n := by decide +kernel
  obtain ⟨p, hp, hplan⟩ : ∃ p,
      ofExtensions noteThemes Catalog.bareSite.installed ["paper"] = .ok p ∧
        p.modules ++ p.themes = ["text", "blog", "paper"] := by decide +kernel
  refine ⟨⟨hcatalog, hlayered, hw, hplain⟩, p, hp, hplan, by decide +kernel, ?_⟩
  exact installed_at_once hcatalog hlayered hw hplain hp none

/-- Two modules that require each other and ship the same note. -/
def noteCircle : Catalog := NameMap.ofList [
  ("blog", Catalog.blogModule), ("text", { Catalog.textModule with dependencies := ["blog"] })]

/-- In a circle it matters. Planned is the module that is required first, and then the other one;
but by itself the former brings the latter with it, and after it. -/
theorem not_installed_at_once_of_circle : ∃ p,
    ofExtensions noteCircle Catalog.bareSite.installed ["blog"] = .ok p ∧
    let apart := (outcome ((p.modules ++ p.themes).forM fun n => noteCircle.install [n] none)
      Catalog.bareSite).2
    let together := (outcome (noteCircle.install ["blog"] none) Catalog.bareSite).2
    (∃ oo, apart.active.read? apart.files none "site.note" = .ok oo ∧
      (oo.bind (·.getName? "by")).bind Value.asString? = some "blog") ∧
    ∃ oo, together.active.read? together.files none "site.note" = .ok oo ∧
      (oo.bind (·.getName? "by")).bind Value.asString? = some "text" := by
  obtain ⟨p, hp, hplan⟩ : ∃ p,
      ofExtensions noteCircle Catalog.bareSite.installed ["blog"] = .ok p ∧
        p.modules ++ p.themes = ["text", "blog"] := by decide +kernel
  refine ⟨p, hp, ?_⟩
  rw [hplan]
  exact ⟨by decide +kernel, by decide +kernel⟩

end InstallPlan

end Cookbook
