import Cookbook.Proofs.Extension.Installing
import Cookbook.Proofs.Extension.Listing
import Cookbook.Proofs.Postorder

/-!
# When installing and uninstalling succeed

With the configuration in memory only two things can go wrong: an extension is not in the catalog, or
the default configuration of one cannot be read. The first concerns uninstalling as well, where an
extension is looked up for what it owns; the second concerns installing alone.

Both are asked for as conditions of the catalog and the names, not of the configuration. So nothing
has to be known of what is installed already, or of the objects that are there.

## Main definitions

* `ConfigM.Succeeds`: a change does not fail in memory.
* `Storage.Exports`, `Storage.Readable`: everything in a storage can be read.
* `Catalog.Closed`: the catalog has what its extensions require, under their own names.

## Main results

* `Catalog.leads_bringDefaults`: bringing default configuration.
* `Catalog.succeeds_uninstall`, `Catalog.succeeds_install`: whole changes.
-/

namespace Cookbook

open Change

/-- The active configuration is in memory, among these files. -/
def Workspace.Over (fs : Files) (w : Workspace) : Prop := w.InMemory ∧ w.files = fs

namespace ConfigM

variable {α β : Type} {fs : Files}

/-- A change of configuration in memory does not fail, and leaves it in memory. -/
abbrev Succeeds (fs : Files) (x : ConfigM α) : Prop :=
  Leads (Workspace.Over fs) x (fun _ => Workspace.Over fs) False

theorem Succeeds.pure (a : α) : Succeeds fs (pure a) := Leads.pure fun _ hw => hw

theorem Succeeds.bind {x : ConfigM α} {f : α → ConfigM β} (hx : Succeeds fs x)
    (hf : ∀ a, Succeeds fs (f a)) : Succeeds fs (x >>= f) :=
  Leads.bind hx hf

theorem Succeeds.forM {l : List α} {f : α → ConfigM PUnit} (h : ∀ a ∈ l, Succeeds fs (f a)) :
    Succeeds fs (l.forM f) :=
  Leads.forM (V := fun _ : Unit => Workspace.Over fs) (g := fun t _ => t) (fun a ha _ => h a ha) ()

/-- What is known whatever the state is stays known. -/
theorem Succeeds.beside {x : ConfigM α} {p E : Prop} (h : Succeeds fs x) :
    Leads (fun w => Workspace.Over fs w ∧ p) x (fun _ w => Workspace.Over fs w ∧ p) E := by
  rintro w ⟨hw, hp⟩
  obtain ⟨a, w', hw', hover⟩ := h.exists_ok not_false hw
  exact .inl ⟨a, w', hw', hover, hp⟩

theorem succeeds_ask {f : Files → Storage → Except Error α}
    (h : ∀ m, ∃ a, f fs (.memory m) = .ok a) : Succeeds fs (ask f) := by
  rintro w ⟨hm, hfs⟩
  obtain ⟨m, hactive⟩ := Workspace.inMemory_iff.mp hm
  obtain ⟨a, ha⟩ := h m
  refine .inl ⟨a, w, ?_, hm, hfs⟩
  rw [outcome_ask, hactive, hfs, ha]

theorem succeeds_write (c : Option String) (name : String) (o : ConfigObject) :
    Succeeds fs (write c name o) := by
  rintro w ⟨hm, hfs⟩
  obtain ⟨m, hactive⟩ := Workspace.inMemory_iff.mp hm
  exact .inl ⟨(), _, outcome_write hactive, Workspace.inMemory_iff.mpr ⟨_, rfl⟩, hfs⟩

theorem succeeds_delete (c : Option String) (name : String) : Succeeds fs (delete c name) := by
  rintro w ⟨hm, hfs⟩
  obtain ⟨m, hactive⟩ := Workspace.inMemory_iff.mp hm
  exact .inl ⟨_, _, outcome_delete hactive, Workspace.inMemory_iff.mpr ⟨_, rfl⟩, hfs⟩

/-- What is asked of another storage is known from that storage. -/
theorem leads_askOf (s : Storage) {f : Files → Storage → Except Error α} :
    Leads (Workspace.Over fs) (askOf s f) (fun a w => Workspace.Over fs w ∧ f fs s = .ok a)
      (¬∃ a, f fs s = .ok a) := by
  rintro w ⟨hm, rfl⟩
  rw [outcome_askOf]
  cases h : f w.files s with
  | ok a => exact .inl ⟨a, w, rfl, ⟨hm, rfl⟩, rfl⟩
  | error e => exact .inr ⟨by simp, e, w, rfl⟩

theorem succeeds_installedExtensions : Succeeds fs installedExtensions :=
  succeeds_ask fun m => ⟨_, (Storage.Shows.memory m).installedExtensions fs⟩

end ConfigM

/-! ### Reading -/

/-- Everything in a storage can be read. -/
def Storage.Exports (fs : Files) (s : Storage) : Prop := ∃ L, s.exportAll fs = .ok L

/-- A storage can be read if its collections can be listed and each of them can be read. -/
theorem Storage.exports_iff {fs : Files} {s : Storage} : s.Exports fs ↔
    ∃ others, s.collectionNames fs = .ok others ∧
      ∀ c ∈ collectionsOf others, ∃ os, s.objects fs (some c) = .ok os := by
  simp only [collectionsOf, List.forall_mem_cons]
  constructor
  · rintro ⟨L, hL⟩
    obtain ⟨first, hfirst, hL⟩ := Except.bind_eq_ok_iff.mp hL
    obtain ⟨others, hothers, hL⟩ := Except.bind_eq_ok_iff.mp hL
    refine ⟨others, hothers, ⟨first, hfirst⟩, ?_⟩
    refine (Except.foldlM_brings (P := fun _ => True)
      (D := fun c _ => ∃ os, s.objects fs (some c) = .ok os) ?_ trivial hL).2.1
    intro found _ c _ found' hstep
    obtain ⟨os, hos, -⟩ := Except.bind_eq_ok_iff.mp hstep
    exact ⟨trivial, ⟨os, hos⟩, fun _ hread => hread⟩
  · rintro ⟨others, hothers, ⟨first, hfirst⟩, hread⟩
    have hfold : ∃ L, others.foldlM (fun (found : Snapshot) c => do
        let os ← s.objects fs (some c)
        return if os.isEmpty then found else found.insert c os)
        (NameMap.empty.insert defaultCollection first) = .ok L ∧ True := by
      refine Except.exists_foldlM_eq_ok (P := fun _ => True) (fun found _ c hc => ?_) trivial
      obtain ⟨os, hos⟩ := hread c hc
      exact ⟨_, Except.bind_eq_ok_iff.mpr ⟨os, hos, rfl⟩, trivial⟩
    obtain ⟨L, hL, -⟩ := hfold
    refine ⟨L, Except.bind_eq_ok_iff.mpr ⟨first, hfirst, ?_⟩⟩
    exact Except.bind_eq_ok_iff.mpr ⟨others, hothers, hL⟩

/-- Everything in a storage can be read, also what is asked for in collections that it does not
list. -/
structure Storage.Readable (fs : Files) (s : Storage) : Prop where
  /-- The collections can be listed. -/
  collections : ∃ cs, s.collectionNames fs = .ok cs
  /-- The objects of each collection can be read. -/
  objects : ∀ c, ∃ os, s.objects fs c = .ok os

/-- Replacing objects by others in memory does not make them unreadable. -/
theorem Storage.Readable.overriding {fs : Files} {s : Storage} (h : s.Readable fs) (L : Snapshot) :
    (Storage.overriding (.view L) s).Exports fs := by
  obtain ⟨others, hothers⟩ := h.collections
  refine Storage.exports_iff.mpr ⟨others, hothers, fun c _ => ?_⟩
  obtain ⟨os, hos⟩ := h.objects (some c)
  obtain ⟨names, hnames, hos⟩ := Except.bind_eq_ok_iff.mp hos
  obtain ⟨replaced, hreplaced, -⟩ := Storage.exists_readEach (L.object? c) os.names
  refine ⟨replaced.union os, ?_⟩
  refine Except.bind_eq_ok_iff.mpr ⟨names, hnames, ?_⟩
  refine Except.bind_eq_ok_iff.mpr ⟨os, hos, ?_⟩
  exact Except.bind_eq_ok_iff.mpr ⟨replaced, hreplaced, rfl⟩

/-- A catalog has what its extensions require, and has each under its name. -/
structure Catalog.Closed (catalog : Catalog) : Prop where
  /-- An extension is found by its own name. -/
  name_eq : ∀ {name x}, catalog.get? name = some x → x.name = name
  /-- What an extension requires is there. -/
  requirements : ∀ {name x}, catalog.get? name = some x →
    ∀ required ∈ x.requirements, catalog.contains required = true

namespace Catalog

open ConfigM

variable {fs : Files} {catalog : Catalog} {names : List String}

/-! ### Single steps -/

theorem succeeds_record (x : Extension) (installed : Bool) : Succeeds fs (record x installed) :=
  Succeeds.bind (succeeds_ask fun _ => ⟨_, rfl⟩) fun _ => succeeds_write _ _ _

theorem succeeds_dropOwned (x : Extension) (c : String) : Succeeds fs (dropOwned x c) := by
  refine Succeeds.bind (succeeds_ask fun m => ⟨_, (Storage.Shows.memory m).objects fs _⟩) fun os => ?_
  refine Succeeds.forM fun e _ => ?_
  obtain ⟨name, o⟩ := e
  dsimp only
  split
  · exact Succeeds.bind (succeeds_delete _ _) fun _ => Succeeds.pure _
  · exact Succeeds.pure _

/-- Bringing a collection fails only if it cannot be read. -/
theorem leads_bringCollection (source : Storage) (c : String) :
    Leads (Workspace.Over fs) (bringCollection source c)
      (fun _ w => Workspace.Over fs w ∧ ∃ os, source.objects fs (some c) = .ok os)
      (¬∃ os, source.objects fs (some c) = .ok os) := by
  refine (leads_askOf source).bind fun os => ?_
  refine (Succeeds.beside ?_).mono (fun _ _ hw => ⟨hw.1, os, hw.2⟩) id
  refine Succeeds.forM fun name _ => ?_
  refine Succeeds.bind (succeeds_ask fun _ => ⟨_, rfl⟩) fun found => ?_
  cases found with
  | true => exact Succeeds.pure _
  | false =>
    cases os.get? name with
    | none => exact Succeeds.pure _
    | some o => exact succeeds_write _ _ _

/-- Bringing default configuration fails exactly if that cannot be read. -/
theorem leads_bringDefaults (x : Extension) (overrides : Option Storage) :
    Leads (Workspace.Over fs) (bringDefaults x overrides)
      (fun _ w => Workspace.Over fs w ∧ (x.source overrides).Exports fs)
      (¬(x.source overrides).Exports fs) := by
  have hall : ∀ source : Storage, Leads (Workspace.Over fs) (do
      let others ← ConfigM.askOf source fun fs s => s.collectionNames fs
      (collectionsOf others).forM (bringCollection source))
      (fun _ w => Workspace.Over fs w ∧ source.Exports fs) (¬source.Exports fs) := by
    intro source
    refine Leads.bind ((leads_askOf source).mono (fun _ _ hw => hw) fun hnone hread => ?_) ?_
    · obtain ⟨others, hothers, -⟩ := Storage.exports_iff.mp hread
      exact hnone ⟨others, hothers⟩
    · rintro others w ⟨hw, hothers⟩
      have hbring : Leads (Workspace.Over fs) ((collectionsOf others).forM (bringCollection source))
          (fun _ w => Workspace.Over fs w ∧
            ∀ c ∈ collectionsOf others, ∃ os, source.objects fs (some c) = .ok os)
          (¬source.Exports fs) := by
        refine Leads.forM_all (V := fun _ : Unit => Workspace.Over fs) (g := fun t _ => t)
          (fun c hc _ => ?_) ()
        refine (leads_bringCollection source c).mono (fun _ _ hw => hw) fun hnone hread => ?_
        obtain ⟨others', hothers', hread⟩ := Storage.exports_iff.mp hread
        rw [hothers] at hothers'
        cases hothers'
        exact hnone (hread c hc)
      exact hbring.mono
        (fun _ _ hw => ⟨hw.1, Storage.exports_iff.mpr ⟨others, hothers, hw.2⟩⟩) id w hw
  cases overrides <;> exact hall _

/-- Default configuration that can be read is brought. -/
theorem succeeds_bringDefaults {x : Extension} {overrides : Option Storage}
    (h : (x.source overrides).Exports fs) : Succeeds fs (bringDefaults x overrides) :=
  (leads_bringDefaults x overrides).mono (fun _ _ hw => hw.1) fun hnone => hnone h

/-! ### Whole changes -/

/-- Uninstalling extensions of the catalog succeeds. -/
theorem succeeds_uninstall (h : ∀ name ∈ names, catalog.contains name = true) :
    Succeeds fs (catalog.uninstall names) := by
  refine Succeeds.bind succeeds_installedExtensions fun installed => ?_
  refine Succeeds.forM fun name hname => ?_
  split
  · obtain ⟨x, hx⟩ := Option.isSome_iff_exists.mp (h name hname)
    rw [hx]
    dsimp only
    refine Succeeds.bind (succeeds_ask fun _ => ⟨_, rfl⟩) fun others => ?_
    refine Succeeds.bind (Succeeds.forM fun c _ => succeeds_dropOwned x c) fun _ => ?_
    exact succeeds_record x false
  · exact Succeeds.pure _

/-- The order of installing extensions of the catalog can be found, if it has what they require. -/
theorem exists_installOrder (hcatalog : catalog.Closed)
    (h : ∀ name ∈ names, catalog.contains name = true) (installed : List String) :
    ∃ order, catalog.installOrder installed names = .ok order := by
  have hneeds : ∀ name, catalog.contains name = true → ∃ needs,
      catalog.requires installed name = .ok needs ∧
      ∀ required ∈ needs, ∀ other ∈ required, catalog.contains other = true := by
    intro name hname
    rw [requires]
    split
    · exact ⟨none, rfl, by simp⟩
    · obtain ⟨x, hx⟩ := Option.isSome_iff_exists.mp hname
      rw [hx]
      refine ⟨some x.requirements, rfl, ?_⟩
      rintro required ⟨⟩
      exact hcatalog.requirements hx
  have hfound : ∃ found, catalog.withRequirements installed names = .ok found :=
    Postorder.exists_visitAll hneeds h
  obtain ⟨found, hfound⟩ := hfound
  exact ⟨_, Except.bind_eq_ok_iff.mpr ⟨found, hfound, rfl⟩⟩

/-- Installing extensions of the catalog succeeds, if it has what they require and all default
configuration can be read. -/
theorem succeeds_install (hcatalog : catalog.Closed)
    (hreadable : ∀ name x, catalog.get? name = some x → x.defaults.Readable fs)
    (h : ∀ name ∈ names, catalog.contains name = true) (L : Snapshot) :
    Succeeds fs (catalog.install names (some (.view L))) := by
  refine Succeeds.bind succeeds_installedExtensions fun installed => ?_
  obtain ⟨order, horder⟩ := exists_installOrder hcatalog h installed
  rw [horder]
  refine Leads.bind (Q := fun order' w => order' = order ∧ Workspace.Over fs w)
    (fun w hw => .inl ⟨order, w, rfl, rfl, hw⟩) ?_
  rintro order' w ⟨rfl, hw⟩
  refine Succeeds.forM (fun x hx => ?_) w hw
  obtain ⟨name, hname, -⟩ := mem_installOrder horder hx
  refine Succeeds.bind (succeeds_record x true) fun _ => ?_
  exact succeeds_bringDefaults ((hreadable name x hname).overriding L)

end Catalog

end Cookbook
