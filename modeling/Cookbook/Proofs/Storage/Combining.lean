import Cookbook.Proofs.Storage.Reading
import Cookbook.Proofs.Workspace

/-!
# Combined storages are one storage in memory

Storages in memory can be merged and can override each other, at any depth. Each way of reading such
a combination goes down to its parts on its own: whether an object is there, the object, several
objects, the names and the collections are asked of both parts again. Here all of them are answered
at once: the combination reads as a single storage in memory that has the objects it stands for.

Which objects these are is said place by place by `StorageView.object?`, for one place at a time and
without regard to how anything is read.

## The invariant

`Storage.Answers` has one field for each question, in the form the snapshot gives the answer. Merging
and overriding keep it, with `Snapshot.joined` and `Snapshot.overridden` as the snapshots; the export
follows, because it is made of the other questions.

## Main definitions

* `StorageView`: nested combinations of storages in memory.
* `StorageView.object?`: which object a combination has at a place.
* `Storage.ObservedAs`: two storages answer all questions alike.
* `Storage.Refuses`: a storage that cannot be changed.

## Main results

* `Storage.Answers.merged`, `Storage.Answers.overriding`: combinations of two storages.
* `StorageView.observed_as_memory`: a combination reads as one storage in memory.
-/

namespace Cookbook

/-! ### Snapshots of combinations -/

namespace Snapshot

/-- The objects of two snapshots; the first one's where both have one. -/
def joined (m n : Snapshot) : Snapshot :=
  (m.mapValues fun c os => os.union (n.collection c)).union n

/-- The objects of a snapshot, with the content that another one has for them. -/
def overridden (r m : Snapshot) : Snapshot :=
  m.mapValues fun c os => os.mapValues fun name o => (r.object? c name).getD o

variable {m n : Snapshot}

/-- The collections that are listed are decided by what is at each place. -/
theorem mem_collectionNames_iff {c : String} :
    c ∈ m.collectionNames ↔ c ≠ defaultCollection ∧ ∃ name, (m.object? c name).isSome = true := by
  rw [mem_collectionNames, ← Bool.not_eq_true, isEmpty_collection_iff, not_forall]
  simp only [Option.isSome_iff_ne_none, ne_eq]

theorem collectionNames_congr
    (h : ∀ c, (∃ name, (m.object? c name).isSome = true) ↔ ∃ name, (n.object? c name).isSome = true) :
    m.collectionNames = n.collectionNames := by
  refine NameMap.names_eq_iff.mpr fun c => ?_
  rw [Bool.eq_iff_iff, ← NameMap.mem_names_iff, ← NameMap.mem_names_iff]
  exact mem_collectionNames_iff.trans ((and_congr_right' (h c)).trans mem_collectionNames_iff.symm)

theorem object?_joined (m n : Snapshot) (c name : String) :
    (joined m n).object? c name = (m.object? c name).or (n.object? c name) := by
  simp only [object?, collection, joined, NameMap.get?_union, NameMap.get?_mapValues]
  cases m.get? c with
  | none => simp
  | some os => simp [NameMap.get?_union]

theorem object?_overridden (r m : Snapshot) (c name : String) : (overridden r m).object? c name
    = (m.object? c name).map fun o => (r.object? c name).getD o := by
  simp only [object?, collection, overridden, NameMap.get?_mapValues]
  cases m.get? c with
  | none => rfl
  | some os => simp only [Option.map_some, Option.getD_some, NameMap.get?_mapValues]

end Snapshot

namespace Storage

open Change

variable {s first second recipe wrapped : Storage} {m n r : Snapshot}

/-! ### Answers -/

/-- A storage answers each question as a snapshot says, in every collection. -/
structure Answers (s : Storage) (m : Snapshot) : Prop where
  holds : ∀ fs c name, s.holds fs c name = .ok (m.object? (collectionOf c) name).isSome
  read? : ∀ fs c name, s.read? fs c name = .ok (m.object? (collectionOf c) name)
  readMultiple : ∀ fs c names, ∃ os, s.readMultiple fs c names = .ok os ∧
    ∀ k, os.get? k = if k ∈ names then m.object? (collectionOf c) k else none
  listNames : ∀ fs c, s.listNames fs c = .ok (m.collection (collectionOf c)).names
  collectionNames : ∀ fs, s.collectionNames fs = .ok m.collectionNames

namespace Answers

theorem null : Storage.null.Answers NameMap.empty where
  holds _ _ _ := rfl
  read? _ _ _ := rfl
  readMultiple _ _ _ := ⟨NameMap.empty, rfl, fun _ => (ite_self _).symm⟩
  listNames _ _ := rfl
  collectionNames _ := rfl

theorem memory (m : Snapshot) : (Storage.memory m).Answers m where
  holds _ _ _ := rfl
  read? _ _ _ := rfl
  readMultiple _ c names := exists_readEach (m.object? (collectionOf c)) names
  listNames _ _ := rfl
  collectionNames _ := rfl

theorem view (m : Snapshot) : (Storage.view m).Answers m where
  holds _ _ _ := rfl
  read? _ _ _ := rfl
  readMultiple _ c names := exists_readEach (m.object? (collectionOf c)) names
  listNames _ _ := rfl
  collectionNames _ := rfl

theorem merged (hfirst : first.Answers m) (hsecond : second.Answers n) :
    (Storage.merged first second).Answers (m.joined n) where
  holds fs c name := by
    rw [Storage.holds, hfirst.holds, hsecond.holds, Snapshot.object?_joined]
    cases m.object? (collectionOf c) name <;> rfl
  read? fs c name := by
    rw [Storage.read?, hfirst.read?, hsecond.read?, Snapshot.object?_joined]
    cases m.object? (collectionOf c) name <;> rfl
  readMultiple fs c names := by
    obtain ⟨found, hfound, hget⟩ := hfirst.readMultiple fs c names
    obtain ⟨others, hothers, hget'⟩ := hsecond.readMultiple fs c names
    refine ⟨found.union others, ?_, fun k => ?_⟩
    · rw [Storage.readMultiple, hothers, hfound]
      rfl
    · rw [NameMap.get?_union, hget, hget', Snapshot.object?_joined]
      split <;> rfl
  listNames fs c := by
    rw [Storage.listNames, hfirst.listNames, hsecond.listNames]
    refine congrArg Except.ok (NameMap.names_eq_iff.mpr fun k => ?_)
    rw [Bool.eq_iff_iff, ← NameMap.mem_names_iff]
    refine Iff.trans NameMap.mem_distinctNames ?_
    rw [List.mem_append, NameMap.mem_names_iff, NameMap.mem_names_iff]
    change _ ↔ ((m.joined n).object? (collectionOf c) k).isSome = true
    rw [Snapshot.object?_joined, Option.isSome_or, Bool.or_eq_true]
    rfl
  collectionNames fs := by
    rw [Storage.collectionNames, hfirst.collectionNames, hsecond.collectionNames]
    refine congrArg Except.ok (NameMap.names_eq_iff.mpr fun k => ?_)
    rw [Bool.eq_iff_iff, ← NameMap.mem_names_iff, ← NameMap.mem_names_iff]
    refine Iff.trans NameMap.mem_distinctNames (Iff.trans ?_ Snapshot.mem_collectionNames_iff.symm)
    simp only [List.mem_append, Snapshot.mem_collectionNames_iff, Snapshot.object?_joined,
      Option.isSome_or, Bool.or_eq_true, exists_or, and_or_left]

theorem overriding (hrecipe : recipe.Answers r) (hwrapped : wrapped.Answers m) :
    (Storage.overriding recipe wrapped).Answers (r.overridden m) where
  holds fs c name := by
    rw [Storage.holds, hwrapped.holds, Snapshot.object?_overridden, Option.isSome_map]
  read? fs c name := by
    rw [Storage.read?, hwrapped.holds, hrecipe.holds, hrecipe.read?, hwrapped.read?,
      Snapshot.object?_overridden]
    cases m.object? (collectionOf c) name <;> cases r.object? (collectionOf c) name <;> rfl
  readMultiple fs c names := by
    obtain ⟨found, hfound, hget⟩ := hwrapped.readMultiple fs c names
    obtain ⟨replaced, hreplaced, hget'⟩ :=
      exists_readEach (r.object? (collectionOf c)) found.names
    refine ⟨replaced.union found, ?_, fun k => ?_⟩
    · have hread : (fun n => recipe.read? fs c n) = fun n => .ok (r.object? (collectionOf c) n) :=
        funext fun n => hrecipe.read? fs c n
      rw [Storage.readMultiple, hfound, hread]
      exact Except.bind_eq_ok_iff.mpr ⟨found, rfl, Except.bind_eq_ok_iff.mpr ⟨_, hreplaced, rfl⟩⟩
    · -- only what the wrapped storage has is looked up in the recipe
      simp only [NameMap.get?_union, hget', NameMap.mem_names_iff, hget, Snapshot.object?_overridden]
      by_cases hk : k ∈ names
      · cases m.object? (collectionOf c) k <;> cases r.object? (collectionOf c) k <;> simp [hk]
      · simp [hk]
  listNames fs c := by
    rw [Storage.listNames, hwrapped.listNames]
    refine congrArg Except.ok (NameMap.names_eq_iff.mpr fun k => ?_)
    change (m.object? (collectionOf c) k).isSome = ((r.overridden m).object? (collectionOf c) k).isSome
    rw [Snapshot.object?_overridden, Option.isSome_map]
  collectionNames fs := by
    rw [Storage.collectionNames, hwrapped.collectionNames]
    refine congrArg Except.ok (Snapshot.collectionNames_congr fun c => ?_)
    simp only [Snapshot.object?_overridden, Option.isSome_map]

end Answers

/-! ### Observations -/

/-- Two storages answer all questions alike, in every collection. -/
structure ObservedAs (s t : Storage) : Prop where
  holds : ∀ fs c name, s.holds fs c name = t.holds fs c name
  read? : ∀ fs c name, s.read? fs c name = t.read? fs c name
  readMultiple : ∀ fs c names, s.readMultiple fs c names = t.readMultiple fs c names
  list : ∀ fs c start, s.list fs c start = t.list fs c start
  collectionNames : ∀ fs, s.collectionNames fs = t.collectionNames fs
  exportAll : ∀ fs, s.exportAll fs = t.exportAll fs

/-- Storages that answer as one snapshot says are observed alike. -/
theorem Answers.observedAs {t : Storage} (hs : s.Answers m) (ht : t.Answers m) :
    s.ObservedAs t := by
  have hnames : ∀ fs c, s.listNames fs c = t.listNames fs c := fun fs c =>
    (hs.listNames fs c).trans (ht.listNames fs c).symm
  have hmultiple : ∀ fs c names, s.readMultiple fs c names = t.readMultiple fs c names := by
    intro fs c names
    obtain ⟨os, hos, hget⟩ := hs.readMultiple fs c names
    obtain ⟨ps, hps, hget'⟩ := ht.readMultiple fs c names
    rw [hos, hps]
    exact congrArg Except.ok (NameMap.ext_get? fun k => (hget k).trans (hget' k).symm)
  have hcollections : ∀ fs, s.collectionNames fs = t.collectionNames fs := fun fs =>
    (hs.collectionNames fs).trans (ht.collectionNames fs).symm
  refine ⟨fun fs c name => (hs.holds fs c name).trans (ht.holds fs c name).symm,
    fun fs c name => (hs.read? fs c name).trans (ht.read? fs c name).symm, hmultiple,
    fun fs c start => ?_, hcollections, fun fs => ?_⟩
  · rw [list, list, hnames]
  · simp only [exportAll, objects, hnames, hmultiple, hcollections]

/-- All changes of a storage fail as changes of a storage that is only read, in every collection, and
nothing is changed. -/
def Refuses (s : Storage) : Prop :=
  ∀ (w : Workspace) (c : Option String) (name newName start : String) (o : ConfigObject),
    w.active = s →
      outcome (ConfigM.write c name o) w = (.error (.readOnlyStorage "write"), w) ∧
      outcome (ConfigM.delete c name) w = (.error (.readOnlyStorage "delete"), w) ∧
      outcome (ConfigM.rename c name newName) w = (.error (.readOnlyStorage "rename"), w) ∧
      outcome (ConfigM.deleteAll c start) w = (.error (.readOnlyStorage "delete_all"), w)

theorem refuses_merged (first second : Storage) : (merged first second).Refuses := by
  rintro ⟨files, active, nextUuid, now⟩ c name newName start o rfl
  exact ⟨rfl, rfl, rfl, rfl⟩

theorem refuses_overriding (recipe wrapped : Storage) : (overriding recipe wrapped).Refuses := by
  rintro ⟨files, active, nextUuid, now⟩ c name newName start o rfl
  exact ⟨rfl, rfl, rfl, rfl⟩

end Storage

/-! ### Nested combinations -/

/-- A combination of storages in memory, to any depth. -/
inductive StorageView where
  /-- Nothing. -/
  | null
  /-- Objects in memory. -/
  | memory (objects : Snapshot)
  /-- Objects that cannot be changed. -/
  | snapshot (objects : Snapshot)
  /-- Two combinations merged. -/
  | merged (first second : StorageView)
  /-- Any number of combinations merged. -/
  | mergedAll (views : List StorageView)
  /-- A combination with the content that another one has for its objects. -/
  | overriding (recipe wrapped : StorageView)

namespace StorageView

mutual

/-- The storage that is made by combining. -/
def storage : StorageView → Storage
  | null => .null
  | memory m => .memory m
  | snapshot m => .view m
  | merged first second => .merged first.storage second.storage
  | mergedAll views => Storage.mergeAll (storages views)
  | overriding recipe wrapped => .overriding recipe.storage wrapped.storage

/-- The storages of several combinations. -/
def storages : List StorageView → List Storage
  | [] => []
  | v :: vs => v.storage :: storages vs

end

mutual

/-- The object that a combination has at a place: of merged ones the first that has one counts, and
an object that the wrapped one has may have other content in the recipe. -/
def object? (c name : String) : StorageView → Option ConfigObject
  | null => none
  | memory m => m.object? c name
  | snapshot m => m.object? c name
  | merged first second => (first.object? c name).or (second.object? c name)
  | mergedAll views => firstObject? c name views
  | overriding recipe wrapped =>
    (wrapped.object? c name).map fun o => (recipe.object? c name).getD o

/-- The object of the first combination that has one at a place. -/
def firstObject? (c name : String) : List StorageView → Option ConfigObject
  | [] => none
  | v :: vs => (v.object? c name).or (firstObject? c name vs)

end

/-- Merging storages one after the other keeps the first object at each place. -/
theorem exists_answers_foldl {vs : List StorageView}
    (h : ∀ v ∈ vs, ∃ m, v.storage.Answers m ∧ ∀ c name, m.object? c name = v.object? c name)
    {s : Storage} {m : Snapshot} (hs : s.Answers m) :
    ∃ n, ((storages vs).foldl Storage.merged s).Answers n ∧
      ∀ c name, n.object? c name = (m.object? c name).or (firstObject? c name vs) := by
  induction vs generalizing s m with
  | nil => exact ⟨m, hs, fun c name => by rw [firstObject?, Option.or_none]⟩
  | cons v vs ih =>
    obtain ⟨hv, hvs⟩ := List.forall_mem_cons.mp h
    obtain ⟨n, hn, hobjects⟩ := hv
    obtain ⟨k, hk, hrest⟩ := ih hvs (hs.merged hn)
    refine ⟨k, hk, fun c name => ?_⟩
    rw [hrest, Snapshot.object?_joined, hobjects, firstObject?, Option.or_assoc]

mutual

/-- A combination answers as the snapshot of its objects says. -/
theorem exists_answers : ∀ v : StorageView,
    ∃ m, v.storage.Answers m ∧ ∀ c name, m.object? c name = v.object? c name
  | null => ⟨NameMap.empty, .null, fun _ _ => rfl⟩
  | memory m => ⟨m, .memory m, fun _ _ => rfl⟩
  | snapshot m => ⟨m, .view m, fun _ _ => rfl⟩
  | merged first second => by
    obtain ⟨m, hm, hfirst⟩ := exists_answers first
    obtain ⟨n, hn, hsecond⟩ := exists_answers second
    refine ⟨m.joined n, hm.merged hn, fun c name => ?_⟩
    rw [Snapshot.object?_joined, hfirst, hsecond, object?]
  | mergedAll [] => ⟨NameMap.empty, .null, fun _ _ => rfl⟩
  | mergedAll (v :: vs) => by
    obtain ⟨m, hm, hv⟩ := exists_answers v
    obtain ⟨n, hn, hobjects⟩ := exists_answers_foldl (forall_exists_answers vs) hm
    refine ⟨n, hn, fun c name => ?_⟩
    rw [hobjects, hv, object?, firstObject?]
  | overriding recipe wrapped => by
    obtain ⟨r, hr, hrecipe⟩ := exists_answers recipe
    obtain ⟨m, hm, hwrapped⟩ := exists_answers wrapped
    refine ⟨r.overridden m, hr.overriding hm, fun c name => ?_⟩
    rw [Snapshot.object?_overridden, hrecipe, hwrapped, object?]

theorem forall_exists_answers : ∀ vs : List StorageView, ∀ v ∈ vs,
    ∃ m, v.storage.Answers m ∧ ∀ c name, m.object? c name = v.object? c name
  | [] => by simp
  | v :: vs => List.forall_mem_cons.mpr ⟨exists_answers v, forall_exists_answers vs⟩

end

/-- A combination reads as one storage in memory, that of the objects it has at each place; and what
is merged or overrides something cannot be changed. -/
theorem observed_as_memory (v : StorageView) :
    (∃ m : Snapshot, (∀ c name, m.object? c name = v.object? c name) ∧
      v.storage.ObservedAs (.memory m)) ∧
    ((∃ s t, v.storage = .merged s t ∨ v.storage = .overriding s t) → v.storage.Refuses) := by
  obtain ⟨m, hm, hobjects⟩ := v.exists_answers
  refine ⟨⟨m, hobjects, hm.observedAs (.memory m)⟩, ?_⟩
  rintro ⟨s, t, h | h⟩
  · rw [h]
    exact Storage.refuses_merged s t
  · rw [h]
    exact Storage.refuses_overriding s t

/-! ### An instance -/

/-- An object with a single entry. -/
def marked (text : String) : ConfigObject := Mapping.ofNames [("label", .string text)]

/-- Two storages that both have an object, with a recipe that has other content for another one. -/
def layered : StorageView :=
  .overriding
    (.memory (Snapshot.ofList
      [("", "core.note", marked "recipe"), ("", "core.extra", marked "recipe")]))
    (.mergedAll [.snapshot (Snapshot.ofList [("fr", "core.site", marked "first")]), .null,
      .memory (Snapshot.ofList
        [("fr", "core.site", marked "last"), ("", "core.note", marked "last")])])

theorem observed_through_layers :
    (∃ m : Snapshot, m.object? "" "core.note" = some (marked "recipe") ∧
      m.object? "" "core.extra" = none ∧ m.object? "fr" "core.site" = some (marked "first") ∧
      layered.storage.ObservedAs (.memory m)) ∧
    (∃ s t, layered.storage = .merged s t ∨ layered.storage = .overriding s t) ∧
    layered.storage.Refuses := by
  have hcombined : ∃ s t, layered.storage = .merged s t ∨ layered.storage = .overriding s t :=
    ⟨_, _, .inr rfl⟩
  obtain ⟨⟨m, hm, hobserved⟩, hrefuses⟩ := observed_as_memory layered
  refine ⟨⟨m, ?_, ?_, ?_, hobserved⟩, hcombined, hrefuses hcombined⟩
  · rw [hm]
    rfl
  · rw [hm]
    rfl
  · rw [hm]
    rfl

end StorageView

end Cookbook
