import Cookbook.Proofs.Checkpoint.Rollback
import Cookbook.Proofs.Extension.Succeeding

/-!
# When going back succeeds

Going back to a checkpoint can fail in its first part only, where extensions are exchanged; what
follows is exact. So it succeeds if the extensions that are listed now are known, and if either none
has to be installed or all that might be can be.

What the configuration has besides its list of extensions makes no difference.

## Main results

* `ImportM.succeeds_exchangeExtensions`: when extensions can be exchanged.
* `CheckpointM.exists_rollback`: when going back succeeds.
-/

namespace Cookbook

open Change

/-- Extensions can be installed among these files, with objects from elsewhere. -/
structure Catalog.CanInstall (fs : Files) (catalog : Catalog) (names : List String) : Prop where
  /-- What is required is there. -/
  closed : catalog.Closed
  /-- All default configuration can be read. -/
  readable : ∀ name x, catalog.get? name = some x → x.defaults.Readable fs
  /-- The extensions are there. -/
  known : ∀ name ∈ names, catalog.contains name = true

/-- An import among these files that nobody listens to. -/
def Import.Quiet (fs : Files) (i : Import) : Prop := i.workspace.Over fs ∧ i.listeners = []

namespace ImportM

variable {fs : Files} {catalog : Catalog} {L m : Snapshot} {i : Import}

theorem leads_change_of_succeeds {α : Type} {x : ConfigM α} (h : ConfigM.Succeeds fs x) :
    Leads (Import.Quiet fs) (change x) (fun _ => Import.Quiet fs) False := by
  rintro i ⟨hw, hquiet⟩
  obtain ⟨a, w, hx, hw'⟩ := h.exists_ok not_false hw
  rw [outcome_change, hx]
  exact .inl ⟨a, _, rfl, hw', hquiet⟩

theorem leads_tellAll (names : List String) (e : String → ImportEvent) :
    Leads (Import.Quiet fs) (names.forM fun name => tell (e name)) (fun _ => Import.Quiet fs)
      False := by
  refine Leads.forM (V := fun _ : Unit => Import.Quiet fs) (g := fun t _ => t) ?_ ()
  exact fun name _ _ i hi => .inl ⟨(), i, outcome_tell_of_quiet hi.2 _, hi⟩

/-- Extensions can be exchanged if those that are listed are known, and if none has to be installed
or all can be. -/
theorem succeeds_exchangeExtensions (hi : i.workspace.active = .memory m)
    (hquiet : i.listeners = []) (hknown : ∀ name ∈ m.installed, catalog.contains name = true)
    (hmissing : L.installed ⊆ m.installed ∨
      catalog.CanInstall i.workspace.files L.installed) :
    ∃ u i', outcome (exchangeExtensions catalog (.view L)) i = (.ok u, i') ∧
      i'.Quiet i.workspace.files := by
  have hstart : i.Quiet i.workspace.files := ⟨⟨Workspace.inMemory_iff.mpr ⟨m, hi⟩, rfl⟩, hquiet⟩
  have huninstall : Leads (Import.Quiet i.workspace.files)
      (change (catalog.uninstall (m.installed.filter (!L.installed.contains ·))))
      (fun _ => Import.Quiet i.workspace.files) False :=
    leads_change_of_succeeds (Catalog.succeeds_uninstall fun name hname =>
      hknown name (List.mem_filter.mp hname).1)
  have hcount : ∀ f : ImportSummary → ImportSummary, Leads (Import.Quiet i.workspace.files)
      (count f) (fun _ => Import.Quiet i.workspace.files) False :=
    fun f j hj => .inl ⟨(), _, rfl, hj⟩
  have hinstall : ∀ f : ImportSummary → ImportSummary, Leads (Import.Quiet i.workspace.files)
      (if (L.installed.filter (!m.installed.contains ·)).isEmpty then count f else do
        change (catalog.install (L.installed.filter (!m.installed.contains ·)) (some (.view L)))
        (L.installed.filter (!m.installed.contains ·)).forM fun name => tell (.installed name)
        count f) (fun _ => Import.Quiet i.workspace.files) False := by
    intro f
    split
    · exact hcount f
    · rename_i hne
      have hcan : catalog.CanInstall i.workspace.files L.installed := by
        refine hmissing.resolve_left fun hsub => hne ?_
        rw [List.isEmpty_iff, List.filter_eq_nil_iff]
        intro name hname
        simpa using hsub hname
      refine Leads.bind (leads_change_of_succeeds (Catalog.succeeds_install hcan.closed
        hcan.readable (fun name hname => hcan.known name (List.mem_filter.mp hname).1) L)) fun _ => ?_
      exact (leads_tellAll _ _).bind fun _ => hcount f
  rw [exchangeExtensions, outcome_bind_ok (outcome_change_wanted (.view L) i),
    outcome_bind_ok (outcome_change_current hi)]
  refine Leads.exists_ok (P := Import.Quiet i.workspace.files)
    (Q := fun _ => Import.Quiet i.workspace.files) ?_ not_false hstart
  dsimp only
  split
  · exact hinstall _
  · exact huninstall.bind fun _ => (leads_tellAll _ _).bind fun _ => hinstall _

end ImportM

namespace CheckpointM

variable {s : CheckpointStorage} {L m : Snapshot} {id : String} {catalog : Catalog}

/-- Going back succeeds if the extensions that are listed are known, and if none has to be installed
or all can be. -/
theorem exists_rollback (hsnapshot : s.log.snapshot s.workspace.files id = .ok L)
    (hm : s.workspace.active = .memory m) (hquiet : s.listeners = [])
    (hlists : (L.object? defaultCollection coreExtension).isSome = true)
    (hknown : ∀ name ∈ m.installed, catalog.contains name = true)
    (hmissing : L.installed ⊆ m.installed ∨
      catalog.CanInstall s.workspace.files L.installed) :
    ∃ summary s', outcome (rollback catalog id) s = (.ok summary, s') := by
  let start : Import := { workspace := s.workspace, listeners := s.listeners }
  have hvalidate : Leads (· = start) (ImportM.validate (.view L)) (fun _ => (· = start)) False := by
    rintro i rfl
    refine .inl ⟨(), start, ?_, rfl⟩
    rw [ImportM.outcome_validate (.view L) hlists]
    exact ImportM.outcome_tell_of_quiet hquiet _
  have hexchange : Leads (· = start) (ImportM.exchangeExtensions catalog (.view L))
      (fun _ i => ∃ m, Import.At True m i) False := by
    rintro i rfl
    obtain ⟨u, i', hexchanged, ⟨hmemory, -⟩, hquiet'⟩ :=
      ImportM.succeeds_exchangeExtensions (i := start) hm hquiet hknown hmissing
    obtain ⟨m', hm'⟩ := Workspace.inMemory_iff.mp hmemory
    exact .inl ⟨u, i', hexchanged, m', hm', fun _ => hquiet'⟩
  obtain ⟨summary, i, himport, -⟩ := (ImportM.leads_importFrom hvalidate hexchange
    fun h => h trivial).exists_ok not_false (s := start) rfl
  rw [outcome_rollback, hsnapshot]
  dsimp only
  rw [himport]
  exact ⟨summary, _, rfl⟩

end CheckpointM

end Cookbook
