import Cookbook.Extension.Installer
import Cookbook.Proofs.Postorder
import Cookbook.Proofs.Storage.LookUp
import Cookbook.Proofs.Workspace
import Mathlib.Logic.Relation

/-!
# What installing and uninstalling keep

Installing an extension does two things to the configuration: it puts objects at places that are
free, and it rewrites the list of installed extensions. Uninstalling deletes objects and rewrites
that list. `Guard.AllowsInstall` and `Guard.AllowsUninstall` ask a guard for just that; a guard that
allows it is kept by every installation, also by one that fails half way.

What is put at a place was read from the default configuration of an extension that is installed:
one of those that were asked for, or one that they need.

## Main definitions

* `Catalog.Holds`: the default configuration of all extensions has a property.
* `Catalog.Needs`: an extension requires another one.
* `Extension.source`: where its default configuration is read from.
* `Guard.AllowsInstall`, `Guard.AllowsRecord`, `Guard.AllowsUninstall`.

## Main results

* `Catalog.stands_install`: what may be read may be installed.
* `Catalog.keeps_install`, `Catalog.keeps_uninstall`.
-/

namespace Cookbook

open Change
open Relation (ReflTransGen)

/-- The default configuration of all extensions has a property. -/
def Catalog.Holds (Q : ConfigObject → Prop) (catalog : Catalog) : Prop :=
  ∀ name x, catalog.get? name = some x → x.defaults.Holds Q

/-- An extension requires another one. -/
def Catalog.Needs (catalog : Catalog) (name name' : String) : Prop :=
  ∃ x, catalog.get? name = some x ∧ name' ∈ x.requirements

/-- Where the default configuration of an extension is read from, with the content that another
storage may have for it. -/
def Extension.source (x : Extension) : Option Storage → Storage
  | some o => .overriding o x.defaults
  | none => x.defaults

/-- What a guard has to allow for extensions to be installed whose objects have a property. -/
structure Guard.AllowsInstall (G : Guard) (Q : ConfigObject → Prop) (catalog : Catalog) :
    Prop where
  /-- Objects can be put where nothing is. -/
  bring : ∀ {c name o}, G c name none → Q o → G c name (some o)
  /-- The list of installed extensions can be rewritten. -/
  record : ∀ {name x}, catalog.get? name = some x → ∀ {oo}, G defaultCollection coreExtension oo →
    G defaultCollection coreExtension (some (Catalog.listed x true (oo.getD Mapping.empty)))

/-- The list of installed extensions can be rewritten when an extension is installed. -/
def Guard.AllowsRecord (G : Guard) (catalog : Catalog) : Prop :=
  ∀ name x oo, catalog.get? name = some x → G defaultCollection coreExtension oo →
    G defaultCollection coreExtension (some (Catalog.listed x true (oo.getD Mapping.empty)))

/-- What a guard has to allow for extensions to be uninstalled. -/
structure Guard.AllowsUninstall (G : Guard) (catalog : Catalog) : Prop where
  /-- Objects can be taken away, except for the list of installed extensions. -/
  drop : ∀ {c name}, name ≠ coreExtension → G c name none
  /-- The list of installed extensions can be rewritten. -/
  record : ∀ {name x}, catalog.get? name = some x → ∀ {oo}, G defaultCollection coreExtension oo →
    G defaultCollection coreExtension (some (Catalog.listed x false (oo.getD Mapping.empty)))

namespace Guard

theorem AllowsInstall.allowsRecord {G : Guard} {Q : ConfigObject → Prop} {catalog : Catalog}
    (h : G.AllowsInstall Q catalog) : G.AllowsRecord catalog :=
  fun _ _ _ hx hoo => h.record hx hoo

theorem free_allowsInstall (catalog : Catalog) :
    Guard.free.AllowsInstall (fun _ => True) catalog :=
  ⟨fun _ _ => trivial, fun _ _ _ => trivial⟩

theorem free_allowsUninstall (catalog : Catalog) : Guard.free.AllowsUninstall catalog :=
  ⟨fun _ => trivial, fun _ _ _ => trivial⟩

end Guard

theorem ConfigM.outcome_askOf {α : Type} (s : Storage) (f : Files → Storage → Except Error α)
    (w : Workspace) : outcome (askOf s f) w = (f w.files s, w) :=
  outcome_ask _ w

namespace Catalog

/-- The default configuration of all extensions has a property that all objects have. -/
theorem holds_of_forall {Q : ConfigObject → Prop} (hQ : ∀ o, Q o) (catalog : Catalog) :
    catalog.Holds Q :=
  fun _ x _ => Storage.holds_of_forall hQ x.defaults

variable {G : Guard} {Q : ConfigObject → Prop} {catalog : Catalog}

/-! ### Installing -/

/-- Only extensions of the catalog are installed, and only those that are needed. -/
theorem mem_installOrder {installed names : List String} {order : List Extension}
    (h : catalog.installOrder installed names = .ok order) {x : Extension} (hx : x ∈ order) :
    ∃ name, catalog.get? name = some x ∧ ∃ n ∈ names, ReflTransGen catalog.Needs n name := by
  obtain ⟨found, hfound, h⟩ := Except.bind_eq_ok_iff.mp h
  cases h
  have hmem : x ∈ found.filterMap catalog.get? := by
    rcases List.mem_append.mp hx with hx | hx <;> exact (List.mem_filter.mp hx).1
  obtain ⟨name, hname, hget⟩ := List.mem_filterMap.mp hmem
  refine ⟨name, hget, ?_⟩
  refine Postorder.forall_mem_visitAll (P := fun name => ∃ n ∈ names,
    ReflTransGen catalog.Needs n name) ?_ (fun n hn => ⟨n, hn, .refl⟩) hfound name hname
  rintro k required ⟨n, hn, hreach⟩ hrequires m hm
  refine ⟨n, hn, hreach.tail ?_⟩
  rw [requires] at hrequires
  split at hrequires
  · cases hrequires
  · split at hrequires
    · rename_i y hy
      cases hrequires
      exact ⟨y, hy, hm⟩
    · cases hrequires

section Stands

variable {fs : Files}

theorem stands_bringCollection {source : Storage} {c : String} (hbring : ∀ {name o},
      G c name none → source.read? fs (some c) name = .ok (some o) → G c name (some o)) :
    Keeps (Workspace.Stands fs G) (bringCollection source c) fun _ => True := by
  have hread : Keeps (Workspace.Stands fs G)
      (ConfigM.askOf source fun fs s => s.objects fs (some c))
      fun os => ∀ k o, os.get? k = some o → source.read? fs (some c) k = .ok (some o) :=
    ConfigM.stands_ask fun _ _ os hos k o ho => Storage.read?_of_objects hos ho
  refine hread.bind fun os hos => Keeps.forM fun name _ => ?_
  refine (ConfigM.stands_of_ask ConfigM.keeps_holds).bind fun found hfree => ?_
  cases found with
  | true => exact Keeps.pure trivial
  | false =>
    cases ho : os.get? name with
    | none => exact Keeps.pure trivial
    | some o => exact ConfigM.stands_write (hbring (hfree rfl) (hos name o ho))

theorem stands_bringDefaults {x : Extension} {overrides : Option Storage}
    (hbring : ∀ {c name o}, G c name none →
      (x.source overrides).read? fs (some c) name = .ok (some o) → G c name (some o)) :
    Keeps (Workspace.Stands fs G) (bringDefaults x overrides) fun _ => True := by
  have hall : Keeps (Workspace.Stands fs G) (do
      let others ← ConfigM.askOf (x.source overrides) fun fs s => s.collectionNames fs
      (collectionsOf others).forM (bringCollection (x.source overrides))) fun _ => True := by
    refine (ConfigM.stands_ask_any _).bind fun others _ => Keeps.forM fun c _ => ?_
    exact stands_bringCollection hbring
  cases overrides <;> exact hall

theorem keeps_record {x : Extension} {installed : Bool}
    (h : ∀ {oo}, G defaultCollection coreExtension oo →
      G defaultCollection coreExtension (some (listed x installed (oo.getD Mapping.empty)))) :
    Keeps (Workspace.Obeys G) (record x installed) fun _ => True :=
  ConfigM.keeps_read?.bind fun _ hoo => ConfigM.keeps_write (h hoo)

theorem stands_record {x : Extension} {installed : Bool}
    (h : ∀ {oo}, G defaultCollection coreExtension oo →
      G defaultCollection coreExtension (some (listed x installed (oo.getD Mapping.empty)))) :
    Keeps (Workspace.Stands fs G) (record x installed) fun _ => True :=
  (ConfigM.stands_of_ask ConfigM.keeps_read?).bind fun _ hoo => ConfigM.stands_write (h hoo)

/-- Extensions can be installed if what may be read for those that are needed may be put where
nothing is. -/
theorem stands_install {names : List String} {overrides : Option Storage}
    (hrecord : G.AllowsRecord catalog)
    (hbring : ∀ {c name o n y x}, n ∈ names → ReflTransGen catalog.Needs n y →
      catalog.get? y = some x → G c name none →
        (x.source overrides).read? fs (some c) name = .ok (some o) → G c name (some o)) :
    Keeps (Workspace.Stands fs G) (catalog.install names overrides) fun _ => True := by
  refine (ConfigM.stands_ask_any _).bind fun installed _ => ?_
  refine Keeps.bind (R := fun order => ∀ x ∈ order, ∃ name, catalog.get? name = some x ∧
    ∃ n ∈ names, ReflTransGen catalog.Needs n name)
    (Keeps.ofExcept fun order horder x hx => mem_installOrder horder hx) fun order horder =>
    Keeps.forM fun x hx => ?_
  obtain ⟨name, hname, n, hn, hreach⟩ := horder x hx
  refine (stands_record fun hoo => hrecord name x _ hname hoo).bind fun _ _ => ?_
  exact stands_bringDefaults (hbring hn hreach hname)

end Stands

theorem keeps_install {names : List String} {overrides : Option Storage}
    (hG : G.AllowsInstall Q catalog) (hcatalog : catalog.Holds Q)
    (hoverrides : ∀ s ∈ overrides, s.Holds Q) :
    Keeps (Workspace.Obeys G) (catalog.install names overrides) fun _ => True := by
  refine ConfigM.keeps_of_stands fun fs => stands_install hG.allowsRecord ?_
  intro c name o n y x _ _ hx hfree ho
  refine hG.bring hfree (Storage.Holds.read? ?_ ho)
  cases overrides with
  | none => exact hcatalog y x hx
  | some s => exact ⟨hoverrides s rfl, hcatalog y x hx⟩

/-! ### Uninstalling -/

theorem keeps_dropOwned {x : Extension} (hdrop : ∀ {c name}, name ≠ coreExtension → G c name none)
    (c : String) : Keeps (Workspace.Obeys G) (dropOwned x c) fun _ => True := by
  refine (ConfigM.keeps_ask_any _).bind fun os _ => Keeps.forM fun e _ => ?_
  obtain ⟨name, o⟩ := e
  dsimp only
  split
  · rename_i h
    rw [Bool.and_eq_true, bne_iff_ne] at h
    exact (ConfigM.keeps_delete (hdrop h.1)).bind fun _ _ => Keeps.pure trivial
  · exact Keeps.pure trivial

theorem keeps_uninstall {names : List String} (hG : G.AllowsUninstall catalog) :
    Keeps (Workspace.Obeys G) (catalog.uninstall names) fun _ => True := by
  refine (ConfigM.keeps_ask_any _).bind fun installed _ =>
    Keeps.forM fun name _ => ?_
  split
  · split
    · exact Keeps.throw _
    · rename_i x hx
      refine (ConfigM.keeps_ask_any _).bind fun others _ => ?_
      refine (Keeps.forM fun c _ => keeps_dropOwned hG.drop c).bind fun _ _ => ?_
      exact keeps_record (hG.record hx)
  · exact Keeps.pure trivial

end Catalog

end Cookbook
