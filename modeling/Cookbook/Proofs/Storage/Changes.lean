import Cookbook.Proofs.Postorder
import Cookbook.Proofs.Storage.Reading
import Cookbook.Storage.Comparison

/-!
# Change lists make a snapshot agree with another

A change list sorts the names of a collection by what has to happen to them: only in the source,
only in the target, in both with different objects, or none of these. The order in each list is that
of dependencies. It has no part in the result, because every name is in one list at most, so the
lists are used here as sets.

Deletions come first, and the collections are changed one after the other. A change list is
computed before all that and stays right, because the changes of one collection do not show in
another.

## Main definitions

* `Snapshot.changed`: a change list applied to a snapshot.
* `Snapshot.ChangesTo`: the change lists between two snapshots.

## Main results

* `Objects.mem_create_iff`, `mem_update_iff`, `mem_delete_iff`: the three lists as sets.
* `Snapshot.agrees_foldl_changed`: applying the change lists of all collections gives agreement.
* `Storage.exists_changesTo`: what is compared between two storages in memory.
-/

namespace Cookbook

namespace Objects

variable {source target os : Objects} {name : String}

/-! ### The lists as sets -/

theorem mem_dependencyOrder : name ∈ os.dependencyOrder ↔ (os.get? name).isSome := by
  rw [dependencyOrder]
  split
  rename_i order horder
  have hneeds : ∀ required, needs os name = .ok (some required) → (os.get? name).isSome := by
    intro required h
    have := Except.ok.inj h
    cases ho : os.get? name with
    | none => simp [ho] at this
    | some o => rfl
  constructor
  · intro h
    obtain ⟨required, hr⟩ := Postorder.needs_of_mem_visitAll horder h
    exact hneeds required hr
  · intro h
    obtain ⟨o, ho⟩ := Option.isSome_iff_exists.mp h
    have hsome : needs os name = .ok (some (Storage.sortNames (ConfigObject.dependencies o))) := by
      rw [needs, ho]
      rfl
    exact Postorder.mem_visitAll horder ((NameMap.mem_names_iff ..).mpr h) hsome

theorem mem_create_iff : name ∈ (changesTo source target).create ↔
    (source.get? name).isSome ∧ target.get? name = none := by
  rw [changesTo, mem_dependencyOrder, NameMap.get?_filter]
  cases source.get? name <;> cases ht : target.get? name <;>
    simp [Option.filter, NameMap.contains, ht]

theorem mem_update_iff : name ∈ (changesTo source target).update ↔
    ∃ o p, source.get? name = some o ∧ target.get? name = some p ∧ p.same o = false := by
  rw [changesTo, NameMap.mem_names_iff, NameMap.get?_filter]
  cases source.get? name <;> cases ht : target.get? name <;> simp [Option.filter, ht]

theorem mem_delete_iff : name ∈ (changesTo source target).delete ↔
    source.get? name = none ∧ (target.get? name).isSome := by
  rw [changesTo, List.mem_reverse, mem_dependencyOrder, NameMap.get?_filter]
  cases hs : source.get? name <;> cases target.get? name <;>
    simp [Option.filter, NameMap.contains, hs]

end Objects

namespace Snapshot

variable {L m t : Snapshot} {c : String} {l : ChangeList}

/-! ### Applying a change list -/

/-- A snapshot after an object of another was copied into it. -/
def copied (L : Snapshot) (c : String) (m : Snapshot) (name : String) : Snapshot :=
  (L.object? c name).elim m (Storage.putObject m c name)

/-- A snapshot after a change list was applied to it, with the objects of another. -/
def changed (L : Snapshot) (c : String) (l : ChangeList) (m : Snapshot) : Snapshot :=
  l.update.foldl (copied L c) (l.create.foldl (copied L c)
    (l.delete.foldl (fun m name => Storage.dropObject m c name) m))

theorem object?_foldl_dropObject (names : List String) (m : Snapshot) (c' name : String) :
    (names.foldl (fun m name => Storage.dropObject m c name) m).object? c' name
      = if c = c' ∧ name ∈ names then none else m.object? c' name := by
  induction names generalizing m with
  | nil => simp
  | cons n names ih =>
    rw [List.foldl_cons, ih, object?_dropObject]
    by_cases hc : c = c'
    · by_cases hn : n = name
      · simp [hc, hn]
      · simp [hc, hn, Ne.symm hn]
    · simp [hc]

theorem object?_foldl_copied {names : List String} (h : ∀ n ∈ names, (L.object? c n).isSome)
    (m : Snapshot) (c' name : String) : (names.foldl (copied L c) m).object? c' name
      = if c = c' ∧ name ∈ names then L.object? c' name else m.object? c' name := by
  induction names generalizing m with
  | nil => simp
  | cons n names ih =>
    obtain ⟨o, ho⟩ := Option.isSome_iff_exists.mp (h n (List.mem_cons_self ..))
    rw [List.foldl_cons, ih fun n hn => h n (List.mem_cons_of_mem _ hn), copied, ho,
      Option.elim_some, object?_putObject]
    by_cases hc : c = c'
    · subst hc
      by_cases hn : n = name
      · subst hn
        simp [ho]
      · simp [hn, Ne.symm hn]
    · simp [hc]

/-- A change list does nothing outside its collection. -/
theorem object?_changed_of_ne (h : ∀ n ∈ l.create ++ l.update, (L.object? c n).isSome)
    {c' : String} (hc : c ≠ c') (m : Snapshot) (name : String) :
    (changed L c l m).object? c' name = m.object? c' name := by
  rw [changed, object?_foldl_copied fun n hn => h n (List.mem_append_right _ hn),
    object?_foldl_copied fun n hn => h n (List.mem_append_left _ hn), object?_foldl_dropObject]
  simp [hc]

theorem isSome_of_mem_changesTo :
    ∀ n ∈ (Objects.changesTo (L.collection c) (m.collection c)).create
      ++ (Objects.changesTo (L.collection c) (m.collection c)).update,
      (L.object? c n).isSome := by
  intro n hn
  rcases List.mem_append.mp hn with hn | hn
  · exact (Objects.mem_create_iff.mp hn).1
  · obtain ⟨o, p, ho, -, -⟩ := Objects.mem_update_iff.mp hn
    exact Option.isSome_iff_exists.mpr ⟨o, ho⟩

/-- The change list of a collection makes it agree with the source's, as long as the collection is
as it was when the list was made. -/
theorem rel_changed (ht : ∀ name, t.object? c name = m.object? c name) (name : String) :
    Option.Rel (fun o p => o.same p = true)
      ((changed L c (Objects.changesTo (L.collection c) (m.collection c)) t).object? c name)
      (L.object? c name) := by
  have hL := isSome_of_mem_changesTo (L := L) (m := m) (c := c)
  have hrefl : ∀ oo : Option ConfigObject, Option.Rel (fun o p => o.same p = true) oo oo := by
    intro oo
    cases oo with
    | none => exact .none
    | some o => exact .some (Value.same_refl _)
  rw [changed, object?_foldl_copied fun n hn => hL n (List.mem_append_right _ hn),
    object?_foldl_copied fun n hn => hL n (List.mem_append_left _ hn), object?_foldl_dropObject]
  simp only [true_and, ht]
  split
  · exact hrefl _
  rename_i hupdate
  split
  · exact hrefl _
  rename_i hcreate
  rw [Objects.mem_update_iff] at hupdate
  rw [Objects.mem_create_iff] at hcreate
  simp only [Objects.mem_delete_iff, object?] at *
  cases hs : (L.collection c).get? name <;> cases hm : (m.collection c).get? name <;> simp_all

/-- Nothing changes where the change list is empty. -/
theorem changed_of_isEmpty (h : l.isEmpty = true) : changed L c l m = m := by
  simp only [ChangeList.isEmpty, Bool.and_eq_true, List.isEmpty_iff] at h
  rw [changed, h.1.1, h.1.2, h.2]
  rfl

/-! ### All collections -/

/-- Change lists of different collections, applied one after the other. -/
theorem rel_foldl_changed {es : List (String × ChangeList)} (hnodup : (es.map Prod.fst).Nodup)
    (hes : ∀ e ∈ es, e.2 = Objects.changesTo (L.collection e.1) (m.collection e.1))
    (ht : ∀ e ∈ es, ∀ name, t.object? e.1 name = m.object? e.1 name) (c name : String) :
    (c ∈ es.map Prod.fst → Option.Rel (fun o p => o.same p = true)
      ((es.foldl (fun t e => changed L e.1 e.2 t) t).object? c name) (L.object? c name)) ∧
    (c ∉ es.map Prod.fst →
      (es.foldl (fun t e => changed L e.1 e.2 t) t).object? c name = t.object? c name) := by
  induction es generalizing t with
  | nil => simp
  | cons e es ih =>
    rw [List.map_cons, List.nodup_cons] at hnodup
    have he := hes e (List.mem_cons_self ..)
    have hother : ∀ c', e.1 ≠ c' → ∀ name,
        (changed L e.1 e.2 t).object? c' name = t.object? c' name := by
      intro c' hc name
      rw [he]
      exact object?_changed_of_ne isSome_of_mem_changesTo hc t name
    have hne : ∀ f ∈ es, e.1 ≠ f.1 := by
      intro f hf heq
      exact hnodup.1 (heq ▸ List.mem_map_of_mem hf)
    obtain ⟨hin, hout⟩ := ih hnodup.2 (fun f hf => hes f (List.mem_cons_of_mem _ hf))
      (t := changed L e.1 e.2 t) fun f hf name => by
        rw [hother f.1 (hne f hf), ht f (List.mem_cons_of_mem _ hf)]
    rw [List.foldl_cons, List.map_cons, List.mem_cons]
    constructor
    · rintro (rfl | hc)
      · -- The later change lists leave the collection of the first as it is.
        rw [hout hnodup.1, he]
        exact rel_changed (ht e (List.mem_cons_self ..)) name
      · exact hin hc
    · intro hc
      rw [not_or] at hc
      rw [hout hc.2, hother c (Ne.symm hc.1)]

/-- The change lists between two snapshots: those of all collections that have something to
change. -/
def ChangesTo (L m : Snapshot) (changes : NameMap ChangeList) : Prop :=
  ∀ c, changes.get? c
    = if (Objects.changesTo (L.collection c) (m.collection c)).isEmpty then none
      else some (Objects.changesTo (L.collection c) (m.collection c))

theorem ChangesTo.eq_of_mem {changes : NameMap ChangeList} (h : L.ChangesTo m changes)
    {e : String × ChangeList} (he : e ∈ changes.entries) :
    e.2 = Objects.changesTo (L.collection e.1) (m.collection e.1) := by
  have hget := NameMap.mem_entries_iff.mp he
  rw [h e.1] at hget
  split at hget
  · cases hget
  · exact (Option.some.inj hget).symm

/-- What is created or updated is in the source. -/
theorem ChangesTo.isSome_of_mem {changes : NameMap ChangeList} (h : L.ChangesTo m changes)
    {e : String × ChangeList} (he : e ∈ changes.entries) :
    ∀ name ∈ e.2.create ++ e.2.update, (L.object? e.1 name).isSome := by
  rw [h.eq_of_mem he]
  exact isSome_of_mem_changesTo

/-- Applying the change lists of all collections that have some gives agreement. -/
theorem agrees_foldl_changed {changes : NameMap ChangeList} (h : L.ChangesTo m changes) :
    (changes.entries.foldl (fun t e => changed L e.1 e.2 t) m).Agrees L := by
  intro c name
  obtain ⟨hin, hout⟩ := rel_foldl_changed (L := L) (m := m) (t := m) changes.nodup_names
    (fun _ he => h.eq_of_mem he) (fun _ _ _ => rfl) c name
  by_cases hc : c ∈ changes.names
  · exact hin hc
  · rw [hout hc]
    rw [NameMap.mem_names_iff, h c] at hc
    split at hc
    · rename_i hempty
      have := rel_changed (L := L) (m := m) (t := m) (c := c) (fun _ => rfl) name
      rwa [changed_of_isEmpty hempty] at this
    · exact absurd rfl hc

end Snapshot

namespace Storage

/-! ### Comparing storages in memory -/

variable {source target : Storage} {L m : Snapshot}

theorem collectionChanges_of_shows (hs : source.Shows L) (ht : target.Shows m) (fs : Files)
    (c : String) : collectionChanges fs source target c
      = .ok (Objects.changesTo (L.collection c) (m.collection c)) := by
  rw [collectionChanges, hs.listNames, ht.listNames]
  refine Except.bind_eq_ok_iff.mpr ⟨_, rfl, Except.bind_eq_ok_iff.mpr ⟨_, rfl, ?_⟩⟩
  refine Except.bind_eq_ok_iff.mpr ⟨_, hs.readMultiple_names fs c, ?_⟩
  exact Except.bind_eq_ok_iff.mpr ⟨_, ht.readMultiple_names fs c, rfl⟩

/-- Collections with equal objects need no changes. -/
theorem isEmpty_changesTo {source target : Objects}
    (h : ∀ name, Option.Rel (fun o p => o.same p = true) (target.get? name) (source.get? name)) :
    (Objects.changesTo source target).isEmpty = true := by
  have hcreate : (Objects.changesTo source target).create = [] := by
    refine List.eq_nil_iff_forall_not_mem.mpr fun name hname => ?_
    obtain ⟨hs, ht⟩ := Objects.mem_create_iff.mp hname
    have hsome := (Option.rel_iff.mp (h name)).1
    rw [hs, ht] at hsome
    cases hsome
  have hupdate : (Objects.changesTo source target).update = [] := by
    refine List.eq_nil_iff_forall_not_mem.mpr fun name hname => ?_
    obtain ⟨o, p, hs, ht, hne⟩ := Objects.mem_update_iff.mp hname
    obtain ⟨o', ho', hsame⟩ := (Option.rel_iff.mp (h name)).2 p ht
    cases hs.symm.trans ho'
    rw [hne] at hsame
    cases hsame
  have hdelete : (Objects.changesTo source target).delete = [] := by
    refine List.eq_nil_iff_forall_not_mem.mpr fun name hname => ?_
    obtain ⟨hs, ht⟩ := Objects.mem_delete_iff.mp hname
    have hsome := (Option.rel_iff.mp (h name)).1
    rw [hs, ht] at hsome
    cases hsome
  rw [ChangeList.isEmpty, hcreate, hupdate, hdelete]
  rfl

/-- The change lists between two storages in memory: all those that are not empty. -/
theorem exists_changesTo (hs : source.Shows L) (ht : target.Shows m) (fs : Files) :
    ∃ changes, changesTo fs source target = .ok changes ∧ L.ChangesTo m changes := by
  let names := NameMap.distinctNames (defaultCollection :: L.collectionNames ++ m.collectionNames)
  let all := names.map fun c => (c, Objects.changesTo (L.collection c) (m.collection c))
  have hall : changesTo fs source target
      = .ok (NameMap.ofList (all.filter fun e => !e.2.isEmpty)) := by
    rw [changesTo, hs.collectionNames, ht.collectionNames]
    refine Except.bind_eq_ok_iff.mpr ⟨_, rfl, Except.bind_eq_ok_iff.mpr ⟨_, rfl, ?_⟩⟩
    refine Except.bind_eq_ok_iff.mpr ⟨all, ?_, rfl⟩
    refine Eq.trans ?_ (List.mapM_pure ..)
    refine congrArg (fun f => names.mapM f) (funext fun c => ?_)
    rw [collectionChanges_of_shows hs ht]
    rfl
  refine ⟨_, hall, fun c => ?_⟩
  have hmem : ∀ l, (c, l) ∈ all.filter (fun e => !e.2.isEmpty) →
      l = Objects.changesTo (L.collection c) (m.collection c) ∧ l.isEmpty = false := by
    intro l hl
    obtain ⟨hl, hempty⟩ := List.mem_filter.mp hl
    obtain ⟨c', -, heq⟩ := List.mem_map.mp hl
    cases heq
    exact ⟨rfl, by simpa using hempty⟩
  split
  · rename_i hempty
    rw [Option.eq_none_iff_forall_ne_some]
    intro l hl
    obtain ⟨rfl, h⟩ := hmem l (NameMap.mem_of_get?_ofList hl)
    rw [hempty] at h
    cases h
  · rename_i hempty
    have hc : c ∈ names := by
      by_contra hc
      simp only [names, NameMap.mem_distinctNames, List.cons_append, List.mem_cons,
        List.mem_append, Snapshot.mem_collectionNames, not_or, not_and, Bool.not_eq_false] at hc
      obtain ⟨hdefault, hL, hm⟩ := hc
      refine hempty (isEmpty_changesTo fun name => ?_)
      rw [NameMap.isEmpty_iff.mp (hL hdefault), NameMap.isEmpty_iff.mp (hm hdefault)]
      exact .none
    refine NameMap.get?_ofList_of_mem ?_ fun l hl => (hmem l hl).1
    refine List.mem_filter.mpr ⟨List.mem_map_of_mem hc, ?_⟩
    simpa using hempty

/-- Between storages that agree there are no changes. -/
theorem changesTo_of_agrees (hs : source.Shows L) (ht : target.Shows m) (h : m.Agrees L)
    (fs : Files) : changesTo fs source target = .ok NameMap.empty := by
  obtain ⟨changes, hchanges, hget⟩ := exists_changesTo hs ht fs
  rw [hchanges]
  refine congrArg Except.ok (NameMap.ext_get? fun c => ?_)
  rw [hget c, isEmpty_changesTo (h c), if_pos rfl, NameMap.get?_empty]

end Storage

end Cookbook
