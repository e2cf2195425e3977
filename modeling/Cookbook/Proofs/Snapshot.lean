import Cookbook.Proofs.NameMap
import Cookbook.Proofs.Value.Equality
import Cookbook.Storage.Basic

/-!
# Snapshots, place by place

A place is a collection and a name in it. What matters of a snapshot is which object it has at each
place: a collection without objects is no more than one that is not there. So snapshots are compared
here by `Snapshot.Agrees`, place by place, and not as maps.

## The distinction that decides it

`Snapshot.same` compares maps of maps, and it is what exports are compared with. It implies
agreement, but agreement does not imply it: an empty collection shows. Exports are where the two
meet. An export has no empty collections but the default one, which it always has, so agreeing
snapshots have the same export. Everything between an export and the next is therefore done with
agreement, and `Snapshot.same` comes back only at the end.

Agreement is reflexive and transitive, and that is all that restoring a snapshot needs. It is not
symmetric for objects in which a key comes twice.

## Main definitions

* `Snapshot.object?`: what is at a place.
* `Snapshot.Agrees`: equal objects at every place.
* `Snapshot.exported`: the export of a snapshot.

## Main results

* `Snapshot.object?_putObject`, `object?_dropObject`: the two changes of a place.
* `Snapshot.Agrees.exported_same`: agreeing snapshots have the same export.
* `Snapshot.agrees_of_same`: equality implies agreement.
-/

namespace Cookbook

/-- Two look-ups are related if they find something in the same cases, and then related things. -/
theorem Option.rel_iff {α β : Type} {x : Option α} {y : Option β} {r : α → β → Prop} :
    Option.Rel r x y ↔ x.isSome = y.isSome ∧ ∀ v, x = some v → ∃ w, y = some w ∧ r v w := by
  cases x <;> cases y <;> simp

namespace Snapshot

/-! ### Places -/

/-- The object at a place. -/
def object? (s : Snapshot) (c name : String) : Option ConfigObject := (s.collection c).get? name

theorem collection_insert (s : Snapshot) (c : String) (os : Objects) (c' : String) :
    collection (s.insert c os) c' = if c = c' then os else s.collection c' := by
  rw [collection, NameMap.get?_insert]
  split <;> rfl

/-- The collections that are listed are those with objects, the default one left out. -/
theorem mem_collectionNames {s : Snapshot} {c : String} :
    c ∈ s.collectionNames ↔ c ≠ defaultCollection ∧ (s.collection c).isEmpty = false := by
  rw [collectionNames, NameMap.mem_names_iff, NameMap.get?_filter, collection]
  cases s.get? c <;> simp [Option.filter, NameMap.isEmpty, NameMap.empty]

@[simp] theorem object?_empty (c name : String) : object? NameMap.empty c name = none := rfl

/-! ### The two changes of a place -/

theorem object?_putObject (s : Snapshot) (c name : String) (o : ConfigObject) (c' name' : String) :
    (Storage.putObject s c name o).object? c' name'
      = if c = c' ∧ name = name' then some o else s.object? c' name' := by
  rw [object?, Storage.putObject, collection_insert]
  by_cases hc : c = c'
  · subst hc
    rw [if_pos rfl, NameMap.get?_insert]
    simp [object?]
  · simp [hc, object?]

/-- Taking an object out shows in its collection alone, whether the collection goes or stays. -/
theorem collection_dropObject (s : Snapshot) (c name c' : String) :
    (Storage.dropObject s c name).collection c'
      = if c = c' then (s.collection c).erase name else s.collection c' := by
  rw [Storage.dropObject]
  split
  · rename_i hs
    split
    · rename_i hc
      subst hc
      rw [collection, hs]
      rfl
    · rfl
  · rename_i os hs
    have hos : s.collection c = os := by rw [collection, hs, Option.getD_some]
    rw [hos]
    dsimp only
    split
    · rename_i hempty
      rw [collection, NameMap.get?_erase]
      split
      · refine NameMap.ext_get? fun n => ?_
        rw [Option.getD_none, NameMap.get?_empty, NameMap.isEmpty_iff.mp hempty.2 n]
      · rfl
    · exact collection_insert ..

theorem object?_dropObject (s : Snapshot) (c name c' name' : String) :
    (Storage.dropObject s c name).object? c' name'
      = if c = c' ∧ name = name' then none else s.object? c' name' := by
  rw [object?, collection_dropObject]
  by_cases hc : c = c'
  · subst hc
    rw [if_pos rfl, NameMap.get?_erase]
    simp [object?]
  · simp [hc, object?]

/-- Of two objects put at one place the later stays. -/
theorem putObject_putObject (s : Snapshot) (c name : String) (o p : ConfigObject) :
    Storage.putObject (Storage.putObject s c name o) c name p = Storage.putObject s c name p := by
  have hobjects : ((s.collection c).insert name o).insert name p
      = (s.collection c).insert name p := by
    refine NameMap.ext_get? fun k => ?_
    simp only [NameMap.get?_insert]
    split <;> rfl
  simp only [Storage.putObject, collection_insert, if_pos, hobjects]
  refine NameMap.ext_get? fun k => ?_
  simp only [NameMap.get?_insert]
  split <;> rfl

/-- Putting an object where it is already. -/
theorem putObject_object? {s : Snapshot} {c name : String} {o : ConfigObject}
    (h : s.object? c name = some o) : Storage.putObject s c name o = s := by
  have hobjects : (s.collection c).insert name o = s.collection c := by
    refine NameMap.ext_get? fun k => ?_
    rw [NameMap.get?_insert]
    split
    · rename_i hk
      exact hk ▸ h.symm
    · rfl
  rw [Storage.putObject, hobjects]
  refine NameMap.ext_get? fun k => ?_
  rw [NameMap.get?_insert]
  split
  · rename_i hk
    subst hk
    rw [object?, collection] at h
    rw [collection]
    cases hc : s.get? c with
    | none =>
      rw [hc] at h
      cases h
    | some os => rfl
  · rfl

/-! ### Agreement -/

/-- Whether the same places are taken, by equal objects. -/
def Agrees (a b : Snapshot) : Prop :=
  ∀ c name, Option.Rel (fun o p => o.same p = true) (a.object? c name) (b.object? c name)

namespace Agrees

variable {a b s : Snapshot}

theorem refl (s : Snapshot) : Agrees s s := by
  intro c name
  cases s.object? c name with
  | none => exact .none
  | some o => exact .some (Value.same_refl _)

theorem trans (hab : Agrees a b) (hbs : Agrees b s) : Agrees a s := by
  intro c name
  obtain ⟨hsome, hsame⟩ := Option.rel_iff.mp (hab c name)
  obtain ⟨hsome', hsame'⟩ := Option.rel_iff.mp (hbs c name)
  refine Option.rel_iff.mpr ⟨hsome.trans hsome', ?_⟩
  intro o ho
  obtain ⟨p, hp, hop⟩ := hsame o ho
  obtain ⟨q, hq, hpq⟩ := hsame' p hp
  exact ⟨q, hq, Value.same_trans hop hpq⟩

theorem isSome_eq (h : Agrees a b) (c name : String) :
    (a.object? c name).isSome = (b.object? c name).isSome :=
  (Option.rel_iff.mp (h c name)).1

theorem exists_same (h : Agrees a b) {c name : String} {o : ConfigObject}
    (ho : a.object? c name = some o) : ∃ p, b.object? c name = some p ∧ o.same p = true :=
  (Option.rel_iff.mp (h c name)).2 o ho

theorem names_eq (h : Agrees a b) (c : String) : (a.collection c).names = (b.collection c).names :=
  NameMap.names_eq_iff.mpr fun name => h.isSome_eq c name

theorem putObject (h : Agrees a b) {o p : ConfigObject} (hop : o.same p = true) (c name : String) :
    Agrees (Storage.putObject a c name o) (Storage.putObject b c name p) := by
  intro c' name'
  rw [object?_putObject, object?_putObject]
  split
  · exact .some hop
  · exact h c' name'

theorem dropObject (h : Agrees a b) (c name : String) :
    Agrees (Storage.dropObject a c name) (Storage.dropObject b c name) := by
  intro c' name'
  rw [object?_dropObject, object?_dropObject]
  split
  · exact .none
  · exact h c' name'

theorem foldl_dropObject (h : Agrees a b) (c : String) (names : List String) :
    Agrees (names.foldl (Storage.dropObject · c) a) (names.foldl (Storage.dropObject · c) b) := by
  induction names generalizing a b with
  | nil => exact h
  | cons name names ih => exact ih (h.dropObject c name)

end Agrees

end Snapshot

namespace Objects

/-- Equal collections answer every look-up alike, up to equality of the objects. -/
theorem same_iff {a b : Objects} :
    a.same b = true ↔
      ∀ name, Option.Rel (fun o p => o.same p = true) (a.get? name) (b.get? name) := by
  rw [same, Bool.and_eq_true, beq_iff_eq, NameMap.names_eq_iff, NameMap.all_entries_iff]
  simp only [Option.rel_iff, forall_and, Option.any_eq_true]

theorem same_refl (os : Objects) : os.same os = true := by
  refine same_iff.mpr fun name => ?_
  cases os.get? name with
  | none => exact .none
  | some o => exact .some (Value.same_refl _)

end Objects

namespace Snapshot

variable {a b : Snapshot}

/-! ### Equality and agreement -/

theorem same_iff :
    a.same b = true ↔ ∀ c, Option.Rel (fun os ps => os.same ps = true) (a.get? c) (b.get? c) := by
  rw [same, Bool.and_eq_true, beq_iff_eq, NameMap.names_eq_iff, NameMap.all_entries_iff]
  simp only [Option.rel_iff, forall_and, Option.any_eq_true]

theorem same_refl (s : Snapshot) : s.same s = true := by
  refine same_iff.mpr fun c => ?_
  cases s.get? c with
  | none => exact .none
  | some os => exact .some os.same_refl

theorem agrees_of_same (h : a.same b = true) : Agrees a b := by
  intro c name
  have hc := same_iff.mp h c
  rw [object?, object?, collection, collection]
  revert hc
  cases a.get? c <;> cases b.get? c <;> intro hc
  · exact .none
  · cases hc
  · cases hc
  · cases hc with
    | some hc => exact Objects.same_iff.mp hc name

/-! ### Exports -/

/-- The export of a snapshot: the default collection and those that hold objects. -/
def exported (s : Snapshot) : Snapshot :=
  (s.filter fun e => e.1 != defaultCollection && !e.2.isEmpty).insert defaultCollection
    (s.collection defaultCollection)

theorem isEmpty_collection_iff {s : Snapshot} {c : String} :
    (s.collection c).isEmpty = true ↔ ∀ name, s.object? c name = none :=
  NameMap.isEmpty_iff

theorem get?_exported (s : Snapshot) (c : String) :
    (exported s).get? c
      = if c = defaultCollection ∨ (s.collection c).isEmpty = false then some (s.collection c)
        else none := by
  rw [exported, NameMap.get?_insert, NameMap.get?_filter]
  by_cases hc : c = defaultCollection
  · subst hc
    simp
  · rw [if_neg (Ne.symm hc), collection]
    cases hs : s.get? c with
    | none => simp [hc, NameMap.isEmpty, NameMap.empty]
    | some os => by_cases he : os.isEmpty <;> simp [Option.filter, hc, he]

@[simp] theorem collection_exported (s : Snapshot) (c : String) :
    (exported s).collection c = s.collection c := by
  rw [collection, get?_exported]
  split
  · rfl
  · rename_i h
    rw [not_or, Bool.not_eq_false] at h
    refine NameMap.ext_get? fun name => ?_
    rw [NameMap.isEmpty_iff.mp h.2 name]
    rfl

@[simp] theorem object?_exported (s : Snapshot) (c name : String) :
    (exported s).object? c name = s.object? c name := by
  rw [object?, collection_exported]
  rfl

/-- Agreeing snapshots have the same export. -/
theorem Agrees.exported_same (h : Agrees a b) : (exported a).same (exported b) = true := by
  refine same_iff.mpr fun c => ?_
  have hempty : (a.collection c).isEmpty = (b.collection c).isEmpty := by
    rw [Bool.eq_iff_iff, isEmpty_collection_iff, isEmpty_collection_iff]
    refine forall_congr' fun name => ?_
    rw [← Option.isNone_iff_eq_none, ← Option.isNone_iff_eq_none, ← Option.not_isSome,
      ← Option.not_isSome, h.isSome_eq]
  rw [get?_exported, get?_exported, hempty]
  split
  · exact .some (Objects.same_iff.mpr (h c))
  · exact .none

theorem agrees_exported (s : Snapshot) : Agrees (exported s) s := by
  intro c name
  rw [object?_exported]
  exact Agrees.refl s c name

end Snapshot

end Cookbook
