import Cookbook.Proofs.Storage.DependencyOrder
import Cookbook.Proofs.Workspace

/-!
# What a comparison says

A change list tells apart the names of two collections: every name that is not the same in both is
in exactly one of three lists. Which list that is follows from where the name is found, so comparing
the other way round swaps creations and deletions. Updates stay, because equality of objects is
symmetric; for this they must not have a key twice at any depth.

There is nothing to change exactly if the storages agree place by place. Exports show no more than
that of a storage in memory: they leave out empty collections, apart from the default one, which
they always have.

## Main definitions

* `Objects.without`: the objects of one collection that another has not.
* `ChangeList.Separates`: a change list is right for two collections, and in order.

## Main results

* `Objects.separates_changesTo`: change lists are right.
* `Storage.hasChanges_iff`: whether storages differ.
* `Storage.compared_of_shows`: comparing two storages in memory, both ways.
-/

namespace Cookbook

open Relation (TransGen)

namespace Objects

variable {source target : Objects} {a b : String}

/-- The objects of one collection whose names are not in another. -/
def without (os others : Objects) : Objects := os.filter fun e => !others.contains e.1

theorem delete_eq (source target : Objects) :
    (changesTo source target).delete = (target.without source).dependencyOrder.reverse :=
  rfl

end Objects

/-! ### Change lists -/

/-- A change list tells two collections apart: no name is there twice, each list has the names it is
for, what is created comes after the created objects it lists, and what is deleted before the
deleted ones. Objects that lead back to each other may come in any order. -/
structure ChangeList.Separates (l : ChangeList) (source target : Objects) : Prop where
  nodup : (l.create ++ l.update ++ l.delete).Nodup
  mem_create : ∀ name, name ∈ l.create ↔ (source.get? name).isSome ∧ target.get? name = none
  mem_update : ∀ name, name ∈ l.update ↔
    ∃ o p, source.get? name = some o ∧ target.get? name = some p ∧ o.same p = false
  mem_delete : ∀ name, name ∈ l.delete ↔ source.get? name = none ∧ (target.get? name).isSome
  create_order : ∀ a b, (source.without target).Lists a b →
    ¬TransGen (source.without target).Lists b a →
    ∃ before after, l.create = before ++ a :: after ∧ b ∈ before
  delete_order : ∀ a b, (target.without source).Lists a b →
    ¬TransGen (target.without source).Lists b a →
    ∃ before after, l.delete = before ++ a :: after ∧ b ∈ after

namespace Objects

variable {source target : Objects}

/-- All objects of a collection have a property. -/
def Hold (Q : ConfigObject → Prop) (os : Objects) : Prop := ∀ name o, os.get? name = some o → Q o

theorem same_comm {o p : ConfigObject} (ho : o.WellFormed) (hp : p.WellFormed) :
    o.same p = p.same o := by
  rw [Bool.eq_iff_iff]
  exact ⟨Mapping.same_symm ho hp, Mapping.same_symm hp ho⟩

theorem nodup_changesTo (source target : Objects) :
    ((changesTo source target).create ++ (changesTo source target).update
      ++ (changesTo source target).delete).Nodup := by
  rw [List.nodup_append', List.nodup_append']
  refine ⟨⟨nodup_dependencyOrder _, NameMap.nodup_names _, ?_⟩,
    List.nodup_reverse.mpr (nodup_dependencyOrder _), ?_⟩
  · intro name hcreate hupdate
    obtain ⟨o, p, -, hp, -⟩ := mem_update_iff.mp hupdate
    rw [(mem_create_iff.mp hcreate).2] at hp
    cases hp
  · intro name hkept hdelete
    -- What is created or updated is in the source, what is deleted is not.
    have hsource : (source.get? name).isSome := by
      rcases List.mem_append.mp hkept with hcreate | hupdate
      · exact (mem_create_iff.mp hcreate).1
      · obtain ⟨o, p, ho, -⟩ := mem_update_iff.mp hupdate
        exact Option.isSome_of_mem ho
    rw [(mem_delete_iff.mp hdelete).1] at hsource
    cases hsource

theorem separates_changesTo (hs : source.Hold Mapping.WellFormed)
    (ht : target.Hold Mapping.WellFormed) :
    (changesTo source target).Separates source target where
  nodup := nodup_changesTo source target
  mem_create _ := mem_create_iff
  mem_update name := by
    refine mem_update_iff.trans (exists_congr fun o => exists_congr fun p => ?_)
    refine and_congr_right fun ho => and_congr_right fun hp => ?_
    rw [same_comm (hs name o ho) (ht name p hp)]
  mem_delete _ := mem_delete_iff
  create_order _ _ hlists hback := exists_before hlists hback
  delete_order a b hlists hback := by
    obtain ⟨before, after, horder, hb⟩ := exists_before hlists hback
    refine ⟨after.reverse, before.reverse, ?_, List.mem_reverse.mpr hb⟩
    rw [delete_eq, horder, List.reverse_append, List.reverse_cons, List.append_assoc]
    rfl

end Objects

/-- The lists of a comparison the other way round. -/
theorem ChangeList.Separates.swapped {l back : ChangeList} {source target : Objects}
    (h : l.Separates source target) (hback : back.Separates target source) :
    (∀ name, name ∈ back.create ↔ name ∈ l.delete) ∧
      ∀ name, name ∈ back.delete ↔ name ∈ l.create := by
  constructor
  · intro name
    rw [h.mem_delete, hback.mem_create, and_comm]
  · intro name
    rw [h.mem_create, hback.mem_delete, and_comm]

namespace Objects

variable {source target : Objects}

/-- The updates are the same both ways, in the same order. -/
theorem update_swap (hs : source.Hold Mapping.WellFormed) (ht : target.Hold Mapping.WellFormed) :
    (changesTo target source).update = (changesTo source target).update := by
  have hmem : ∀ name, name ∈ (changesTo target source).update ↔
      name ∈ (changesTo source target).update := by
    intro name
    rw [(separates_changesTo ht hs).mem_update, mem_update_iff, exists_comm]
    refine exists_congr fun o => exists_congr fun p => ?_
    exact and_left_comm
  rw [changesTo, changesTo, NameMap.names_eq_iff]
  intro name
  rw [Bool.eq_iff_iff, ← NameMap.mem_names_iff, ← NameMap.mem_names_iff]
  exact hmem name

end Objects

/-! ### Differences -/

namespace Snapshot

variable {s t : Snapshot} {c : String}

theorem Holds.collection {Q : ConfigObject → Prop} (h : s.Holds Q) (c : String) :
    (s.collection c).Hold Q :=
  h c

theorem Agrees.symm (hs : s.Holds Mapping.WellFormed) (ht : t.Holds Mapping.WellFormed)
    (h : s.Agrees t) : t.Agrees s := by
  intro c name
  obtain ⟨hsome, -⟩ := Option.rel_iff.mp (h c name)
  refine Option.rel_iff.mpr ⟨hsome.symm, fun p hp => ?_⟩
  obtain ⟨o, ho⟩ := Option.isSome_iff_exists.mp (hsome.trans (Option.isSome_of_mem hp))
  obtain ⟨p', hp', hsame⟩ := h.exists_same ho
  cases hp.symm.trans hp'
  exact ⟨o, ho, Mapping.same_symm (hs c name o ho) (ht c name p hp) hsame⟩

/-- Snapshots agree exactly if no collection has anything to change. -/
theorem agrees_iff_isEmpty : t.Agrees s ↔
    ∀ c, (Objects.changesTo (s.collection c) (t.collection c)).isEmpty = true := by
  constructor
  · exact fun h c => Storage.isEmpty_changesTo (h c)
  · intro h c name
    have hrel := rel_changed (L := s) (m := t) (t := t) (c := c) (fun _ => rfl) name
    rwa [changed_of_isEmpty (h c)] at hrel

/-- Snapshots agree exactly if their exports are equal. -/
theorem agrees_iff_exported_same : s.Agrees t ↔ s.exported.same t.exported = true := by
  refine ⟨Agrees.exported_same, fun h c name => ?_⟩
  have hrel := agrees_of_same h c name
  rwa [object?_exported, object?_exported] at hrel

end Snapshot

namespace Storage

variable {source target : Storage} {s t : Snapshot}

theorem hasChanges_eq_false_iff {changes : NameMap ChangeList} : hasChanges changes = false ↔
    ∀ c l, changes.get? c = some l → l.isEmpty = true := by
  rw [hasChanges, List.any_eq_false, NameMap.values, List.forall_mem_map]
  constructor
  · intro h c l hl
    simpa using h (c, l) (NameMap.mem_entries_iff.mpr hl)
  · rintro h ⟨c, l⟩ hl
    simpa using h c l (NameMap.mem_entries_iff.mp hl)

/-- Storages in memory differ just if their exports do. -/
theorem hasChanges_iff (hs : s.Holds Mapping.WellFormed) (ht : t.Holds Mapping.WellFormed)
    {changes : NameMap ChangeList} (h : s.ChangesTo t changes) :
    hasChanges changes = false ↔ s.exported.same t.exported = true := by
  have hempty : hasChanges changes = false ↔ t.Agrees s := by
    rw [hasChanges_eq_false_iff, Snapshot.agrees_iff_isEmpty]
    refine forall_congr' fun c => ?_
    rw [h c]
    split <;> simp_all
  rw [hempty, ← Snapshot.agrees_iff_exported_same]
  exact ⟨fun hagrees => hagrees.symm ht hs, fun hagrees => hagrees.symm hs ht⟩

/-- A collection without a change list has an empty one. -/
theorem getD_changes {changes : NameMap ChangeList} (h : s.ChangesTo t changes) (c : String) :
    (changes.get? c).getD {} = Objects.changesTo (s.collection c) (t.collection c) := by
  rw [h c]
  split
  · rename_i hempty
    generalize Objects.changesTo (s.collection c) (t.collection c) = l at hempty
    obtain ⟨create, update, delete⟩ := l
    simp only [ChangeList.isEmpty, Bool.and_eq_true, List.isEmpty_iff] at hempty
    obtain ⟨⟨rfl, rfl⟩, rfl⟩ := hempty
    rfl
  · rfl

/-- Two storages in memory can be compared both ways. They differ just if their exports do, the
change list of every collection tells it apart, and the other way round creations and deletions
are swapped. -/
theorem compared_of_shows (hsource : source.Shows s) (htarget : target.Shows t)
    (hs : s.Holds Mapping.WellFormed) (ht : t.Holds Mapping.WellFormed) (fs : Files) :
    ∃ changes back sourceExport targetExport,
      changesTo fs source target = .ok changes ∧ changesTo fs target source = .ok back ∧
      source.exportAll fs = .ok sourceExport ∧ target.exportAll fs = .ok targetExport ∧
      (hasChanges changes = false ↔ sourceExport.same targetExport = true) ∧
      ∀ c, ((changes.get? c).getD {}).Separates (s.collection c) (t.collection c) ∧
        (∀ name, name ∈ ((back.get? c).getD {}).create ↔
          name ∈ ((changes.get? c).getD {}).delete) ∧
        (∀ name, name ∈ ((back.get? c).getD {}).delete ↔
          name ∈ ((changes.get? c).getD {}).create) ∧
        ((back.get? c).getD {}).update = ((changes.get? c).getD {}).update := by
  obtain ⟨changes, hchanges, hget⟩ := exists_changesTo hsource htarget fs
  obtain ⟨back, hback, hget'⟩ := exists_changesTo htarget hsource fs
  refine ⟨changes, back, s.exported, t.exported, hchanges, hback, hsource.exportAll fs,
    htarget.exportAll fs, hasChanges_iff hs ht hget, fun c => ?_⟩
  rw [getD_changes hget, getD_changes hget']
  have hsc := hs.collection c
  have htc := ht.collection c
  have hlist := Objects.separates_changesTo hsc htc
  obtain ⟨hcreate, hdelete⟩ := hlist.swapped (Objects.separates_changesTo htc hsc)
  exact ⟨hlist, hcreate, hdelete, Objects.update_swap hsc htc⟩

/-! ### An instance -/

/-- Two objects on a circle, one of which needs a third, and an object that is everywhere. -/
def circling : Snapshot := Snapshot.ofList [
  ("", "a.page", Objects.listing ["b.round", "c.base"] []),
  ("", "b.round", Objects.listing [] ["a.page"]),
  ("", "c.base", Mapping.empty),
  ("", "site", Mapping.ofNames [("lang", .string "en")])]

/-- Two objects in a row, another version of the object that is everywhere, and a translation. -/
def trailing : Snapshot := Snapshot.ofList [
  ("", "old.page", Objects.listing ["old.type"] []),
  ("", "old.type", Mapping.empty),
  ("", "site", Mapping.ofNames [("lang", .string "de")]),
  ("de", "site", Mapping.ofNames [("name", .string "Hier")])]

theorem wellFormed_circling : circling.Holds Mapping.WellFormed :=
  Snapshot.obeys_only_of_entries (by decide +kernel)

theorem wellFormed_trailing : trailing.Holds Mapping.WellFormed :=
  Snapshot.obeys_only_of_entries (by decide +kernel)

theorem compared_circling :
    (memory circling).Shows circling ∧ (within "de" (view trailing)).Shows trailing ∧
    circling.Holds Mapping.WellFormed ∧ trailing.Holds Mapping.WellFormed ∧
    ∃ changes, changesTo {} (memory circling) (within "de" (view trailing))
        = .ok changes ∧
      hasChanges changes = true ∧ circling.exported.same trailing.exported = false ∧
      changes.entries = [
        ("", ⟨["b.round", "c.base", "a.page"], ["site"], ["old.page", "old.type"]⟩),
        ("de", ⟨[], [], ["site"]⟩)] ∧
      ∀ c, ((changes.get? c).getD {}).Separates (circling.collection c)
        (trailing.collection c) := by
  have hsource : (memory circling).Shows circling := .memory circling
  have htarget : (within "de" (view trailing)).Shows trailing := .within "de" (.view trailing)
  obtain ⟨changes, back, sourceExport, targetExport, hchanges, -, hsourceExport, htargetExport,
    hiff, hlists⟩ :=
      compared_of_shows hsource htarget wellFormed_circling wellFormed_trailing {}
  have hentries : (match changesTo {} (memory circling)
      (within "de" (view trailing)) with
      | .ok changes => changes.entries
      | .error _ => []) = [
        ("", ⟨["b.round", "c.base", "a.page"], ["site"], ["old.page", "old.type"]⟩),
        ("de", ⟨[], [], ["site"]⟩)] := by
    cbv
  rw [hchanges] at hentries
  dsimp only at hentries
  have hdiffer : hasChanges changes = true := by
    rw [hasChanges, NameMap.values, hentries]
    rfl
  cases hsourceExport.symm.trans (hsource.exportAll _)
  cases htargetExport.symm.trans (htarget.exportAll _)
  have hsame : circling.exported.same trailing.exported = false := by
    rwa [← Bool.not_eq_false, hiff, Bool.not_eq_true] at hdiffer
  exact ⟨hsource, htarget, wellFormed_circling, wellFormed_trailing, changes, hchanges, hdiffer,
    hsame, hentries, fun c => (hlists c).1⟩

end Storage

end Cookbook
