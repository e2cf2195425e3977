import Cookbook.Proofs.Change
import Cookbook.Proofs.Storage.Reading
import Cookbook.Workspace

/-!
# Configuration in memory

With the active configuration in memory, reading and writing it cannot fail, and each write or
delete changes one place. So an invariant of the configuration can be given place by place, as a
`Guard`: what may be at each place, and whether it may be free. A write has to be allowed at its own
place and nowhere else.

What is written may have been read from files. `Workspace.Stands` says which files there are, beside
what a guard allows. Configuration in memory is changed without changing files, so they can be taken
as known.

A guard speaks of one place at a time. What reads found out about a place therefore stays true for
the guard, even when the place has changed since: that it was free once shows that it may be.

## Main definitions

* `Guard`: what may be at each place.
* `Workspace.Obeys`: the active configuration is in memory and has what a guard allows.
* `Workspace.Stands`: and the files are known.

## Main results

* `outcome_write`, `outcome_delete`: the two changes of configuration in memory.
* `keeps_write`, `keeps_delete`, `keeps_read?`, `keeps_list`: what they keep and find.
-/

namespace Cookbook

/-- What may be at the place of a collection and a name. -/
abbrev Guard := String → String → Option ConfigObject → Prop

/-- Every place of a snapshot has what a guard allows. -/
def Snapshot.Obeys (G : Guard) (m : Snapshot) : Prop := ∀ c name, G c name (m.object? c name)

/-- The active configuration is in memory and has at every place what a guard allows. -/
def Workspace.Obeys (G : Guard) (w : Workspace) : Prop := ∃ m, w.active = .memory m ∧ m.Obeys G

/-- The files are known, and the active configuration is in memory and has at every place what a
guard allows. -/
def Workspace.Stands (fs : Files) (G : Guard) (w : Workspace) : Prop := w.files = fs ∧ w.Obeys G

namespace Guard

/-- Everything may be everywhere. -/
def free : Guard := fun _ _ _ => True

/-- Objects with a property may be everywhere. -/
def only (Q : ConfigObject → Prop) : Guard := fun _ _ oo => ∀ o ∈ oo, Q o

end Guard

/-- A snapshot whose entries all have a property. -/
theorem Snapshot.obeys_only_of_entries {Q : ConfigObject → Prop} {m : Snapshot}
    (h : ∀ e ∈ m.entries, ∀ f ∈ e.2.entries, Q f.2) : m.Obeys (Guard.only Q) := by
  intro c name o ho
  rw [Snapshot.object?, Snapshot.collection] at ho
  cases hc : m.get? c with
  | none =>
    rw [hc] at ho
    cases ho
  | some os =>
    rw [hc] at ho
    exact h _ (NameMap.mem_entries_iff.mpr hc) _ (NameMap.mem_entries_iff.mpr ho)

/-- The active configuration is in memory. -/
abbrev Workspace.InMemory (w : Workspace) : Prop := w.Obeys .free

theorem Workspace.inMemory_iff {w : Workspace} : w.InMemory ↔ ∃ m, w.active = .memory m := by
  refine exists_congr fun m => and_iff_left_of_imp fun _ => ?_
  exact fun _ _ => trivial

theorem Workspace.Obeys.inMemory {w : Workspace} {G : Guard} (h : w.Obeys G) : w.InMemory :=
  let ⟨m, hm, _⟩ := h
  ⟨m, hm, fun _ _ => trivial⟩

/-- What one guard allows may be what another one does. -/
theorem Workspace.Stands.mono {w : Workspace} {fs : Files} {G G' : Guard} (h : w.Stands fs G)
    (hG : ∀ c name oo, G c name oo → G' c name oo) : w.Stands fs G' :=
  let ⟨hfiles, m, hm, hobeys⟩ := h
  ⟨hfiles, m, hm, fun c name => hG c name _ (hobeys c name)⟩

/-- The export of configuration in memory. -/
theorem Workspace.exportAll_of_active {w : Workspace} {m : Snapshot} (h : w.active = .memory m) :
    w.exportAll = .ok m.exported := by
  rw [exportAll, h, (Storage.Shows.memory m).exportAll]

namespace ConfigM

open Change

variable {G : Guard} {w : Workspace} {m : Snapshot} {c : Option String} {name : String}
  {o : ConfigObject}

/-! ### Outcomes -/

theorem outcome_ask {α : Type} (f : Files → Storage → Except Error α) (w : Workspace) :
    outcome (ask f) w = (f w.files w.active, w) := by
  rw [ask, outcome_bind, outcome_get]
  exact outcome_ofExcept ..

theorem outcome_read? (h : w.active = .memory m) :
    outcome (read? c name) w = (.ok (m.object? (Storage.collectionOf c) name), w) := by
  rw [read?, outcome_ask, h]
  rfl

theorem outcome_holds (h : w.active = .memory m) :
    outcome (holds c name) w = (.ok (m.object? (Storage.collectionOf c) name).isSome, w) := by
  rw [holds, outcome_ask, h]
  rfl

theorem outcome_objects (h : w.active = .memory m) (c : String) :
    outcome (objects (some c)) w = (.ok (m.collection c), w) := by
  rw [objects, outcome_ask, h, (Storage.Shows.memory m).objects]

theorem outcome_collectionNames (h : w.active = .memory m) :
    outcome collectionNames w = (.ok m.collectionNames, w) := by
  rw [collectionNames, outcome_ask, h]
  rfl

/-- All names start with nothing. -/
theorem outcome_list (h : w.active = .memory m) (c : String) :
    outcome (list (some c) "") w = (.ok (m.collection c).names, w) := by
  have hall : (m.collection c).names.filter (Text.hasStart "") = (m.collection c).names :=
    List.filter_eq_self.mpr fun _ _ => rfl
  rw [list, outcome_ask, h, ← hall]
  rfl

theorem outcome_newUuid (w : Workspace) :
    outcome newUuid w
      = (.ok (Workspace.uuidText w.nextUuid), { w with nextUuid := w.nextUuid + 1 }) := rfl

theorem outcome_write (h : w.active = .memory m) :
    outcome (write c name o) w = (.ok (),
      { w with active := .memory (Storage.putObject m (Storage.collectionOf c) name o) }) := by
  rw [write, outcome_bind, outcome_get]
  simp only [h, Storage.write, outcome_bind, outcome_set, outcome_ofExcept]

theorem outcome_delete (h : w.active = .memory m) :
    outcome (delete c name) w = (.ok ((m.collection (Storage.collectionOf c)).contains name),
      { w with active := .memory (Storage.dropObject m (Storage.collectionOf c) name) }) := by
  rw [delete, outcome_bind, outcome_get]
  simp only [h, Storage.delete, outcome_bind, outcome_set, outcome_ofExcept]

/-! ### Invariants -/

theorem keeps_ask {α : Type} {f : Files → Storage → Except Error α} {R : α → Prop}
    (h : ∀ fs m, m.Obeys G → ∀ a, f fs (.memory m) = .ok a → R a) :
    Keeps (Workspace.Obeys G) (ask f) R := by
  rintro w ⟨m, hm, hG⟩
  rw [outcome_ask]
  refine ⟨⟨m, hm, hG⟩, fun a ha => h w.files m hG a ?_⟩
  rwa [← hm]

theorem keeps_ask_any {α : Type} (f : Files → Storage → Except Error α) :
    Keeps (Workspace.Obeys G) (ask f) fun _ => True :=
  keeps_ask fun _ _ _ _ _ => trivial

/-- What a place was read to have may be there. -/
theorem keeps_read? :
    Keeps (Workspace.Obeys G) (read? c name) fun oo => G (Storage.collectionOf c) name oo := by
  refine keeps_ask fun fs m hG oo h => ?_
  cases h
  exact hG _ _

/-- A place where nothing was may be free. -/
theorem keeps_holds : Keeps (Workspace.Obeys G) (holds c name) fun found =>
    found = false → G (Storage.collectionOf c) name none := by
  refine keeps_ask fun fs m hG found h hfound => ?_
  cases h
  have := hG (Storage.collectionOf c) name
  rwa [Snapshot.object?, Option.isNone_iff_eq_none.mp (Option.isSome_eq_false_iff.mp hfound)] at this

/-- A place whose name is not listed may be free. -/
theorem keeps_list : Keeps (Workspace.Obeys G) (list c "") fun found =>
    ∀ name, name ∉ found → G (Storage.collectionOf c) name none := by
  refine keeps_ask fun fs m hG found h name hname => ?_
  cases h
  have hstart : Text.hasStart "" name = true := rfl
  rw [List.mem_filter, not_and_or] at hname
  have hfree : name ∉ (m.collection (Storage.collectionOf c)).names :=
    hname.resolve_right fun h => h hstart
  rw [NameMap.mem_names_iff, Option.isSome_iff_ne_none, not_not] at hfree
  have := hG (Storage.collectionOf c) name
  rwa [Snapshot.object?, hfree] at this

theorem keeps_write (h : G (Storage.collectionOf c) name (some o)) :
    Keeps (Workspace.Obeys G) (write c name o) fun _ => True := by
  rintro w ⟨m, hm, hG⟩
  rw [outcome_write hm]
  refine ⟨⟨_, rfl, fun c' name' => ?_⟩, fun _ _ => trivial⟩
  rw [Snapshot.object?_putObject]
  split
  · rename_i heq
    rwa [← heq.1, ← heq.2]
  · exact hG c' name'

theorem keeps_delete (h : G (Storage.collectionOf c) name none) :
    Keeps (Workspace.Obeys G) (delete c name) fun _ => True := by
  rintro w ⟨m, hm, hG⟩
  rw [outcome_delete hm]
  refine ⟨⟨_, rfl, fun c' name' => ?_⟩, fun _ _ => trivial⟩
  rw [Snapshot.object?_dropObject]
  split
  · rename_i heq
    rwa [← heq.1, ← heq.2]
  · exact hG c' name'

theorem keeps_newUuid : Keeps (Workspace.Obeys G) newUuid fun _ => True := by
  rintro w h
  exact ⟨h, fun _ _ => trivial⟩

/-! ### Known files -/

variable {fs : Files}

/-- What is kept whatever the files are is kept. -/
theorem keeps_of_stands {α : Type} {x : ConfigM α} {R : α → Prop}
    (h : ∀ fs, Keeps (Workspace.Stands fs G) x R) : Keeps (Workspace.Obeys G) x R := by
  intro w hw
  obtain ⟨⟨-, hkept⟩, hR⟩ := h w.files w ⟨rfl, hw⟩
  exact ⟨hkept, hR⟩

/-- A change that leaves the files as they are keeps them with what else it keeps. -/
theorem stands_of_keeps {α : Type} {x : ConfigM α} {R : α → Prop}
    (h : Keeps (Workspace.Obeys G) x R)
    (hfiles : ∀ w : Workspace, w.InMemory → (outcome x w).2.files = w.files) :
    Keeps (Workspace.Stands fs G) x R := by
  rintro w ⟨rfl, hw⟩
  obtain ⟨hkept, hR⟩ := h w hw
  exact ⟨⟨hfiles w hw.inMemory, hkept⟩, hR⟩

theorem stands_ask {α : Type} {f : Files → Storage → Except Error α} {R : α → Prop}
    (h : ∀ m, m.Obeys G → ∀ a, f fs (.memory m) = .ok a → R a) :
    Keeps (Workspace.Stands fs G) (ask f) R := by
  rintro w ⟨rfl, m, hm, hG⟩
  rw [outcome_ask]
  refine ⟨⟨rfl, m, hm, hG⟩, fun a ha => h m hG a ?_⟩
  rwa [← hm]

/-- What is asked leaves the files as they are. -/
theorem stands_of_ask {α : Type} {f : Files → Storage → Except Error α} {R : α → Prop}
    (h : Keeps (Workspace.Obeys G) (ask f) R) : Keeps (Workspace.Stands fs G) (ask f) R := by
  refine stands_of_keeps h fun w _ => ?_
  rw [outcome_ask]

theorem stands_ask_any {α : Type} (f : Files → Storage → Except Error α) :
    Keeps (Workspace.Stands fs G) (ask f) fun _ => True :=
  stands_of_ask (keeps_ask_any f)

theorem stands_write (h : G (Storage.collectionOf c) name (some o)) :
    Keeps (Workspace.Stands fs G) (write c name o) fun _ => True := by
  refine stands_of_keeps (keeps_write h) ?_
  rintro w ⟨m, hm, -⟩
  rw [outcome_write hm]

end ConfigM

end Cookbook
