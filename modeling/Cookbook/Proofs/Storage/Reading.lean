import Cookbook.Proofs.Except
import Cookbook.Proofs.Snapshot

/-!
# What reading a storage gives

Storages in memory can always be read, and their reads are look-ups in the snapshot. That is what
makes an import between two of them exact.

Of other storages only this is used: an object that was read came from somewhere. `Storage.Holds`
says of every place that objects come from, at any depth of combined storages, that the objects
there have a property; what is read has it then, whichever way it is read. Of a directory it speaks
about all documents that can be decoded, because its files may be any.

## Main definitions

* `Storage.Shows`: a storage in memory, with what it shows.
* `Snapshot.Holds`, `Storage.Holds`: all objects have a property.

## Main results

* `Storage.Shows.objects`, `Storage.Shows.exportAll`: storages in memory.
* `Storage.Holds.read?`, `Storage.Holds.objects`: reading from storages whose objects have a
  property.
-/

namespace Cookbook

/-- All objects of a snapshot have a property. -/
def Snapshot.Holds (Q : ConfigObject → Prop) (s : Snapshot) : Prop :=
  ∀ c name o, s.object? c name = some o → Q o

theorem Snapshot.Holds.putObject {Q : ConfigObject → Prop} {s : Snapshot} (h : s.Holds Q)
    {o : ConfigObject} (ho : Q o) (c name : String) : Holds Q (Storage.putObject s c name o) := by
  intro c' name' p hp
  rw [object?_putObject] at hp
  split at hp
  · exact Option.some.inj hp ▸ ho
  · exact h c' name' p hp

theorem Snapshot.Holds.dropObject {Q : ConfigObject → Prop} {s : Snapshot} (h : s.Holds Q)
    (c name : String) : Holds Q (Storage.dropObject s c name) := by
  intro c' name' p hp
  rw [object?_dropObject] at hp
  split at hp
  · cases hp
  · exact h c' name' p hp

theorem Snapshot.Holds.foldl_dropObject {Q : ConfigObject → Prop} {s : Snapshot} (h : s.Holds Q)
    (c : String) (names : List String) : Holds Q (names.foldl (Storage.dropObject · c) s) := by
  induction names generalizing s with
  | nil => exact h
  | cons name names ih => exact ih (h.dropObject c name)

namespace Storage

variable {fs : Files} {c : Option String} {names : List String} {os : Objects} {s : Storage}
  {read : String → Except Error (Option ConfigObject)} {Q : ConfigObject → Prop}

/-! ### One after the other -/

/-- What was read one after the other was read by its name. -/
theorem read_of_readEach (h : readEach read names = .ok os) {name : String} {o : ConfigObject}
    (ho : os.get? name = some o) : name ∈ names ∧ read name = .ok (some o) := by
  refine Except.foldlM_invariant (P := fun os : Objects => ∀ name o, os.get? name = some o →
    name ∈ names ∧ read name = .ok (some o)) ?_ (by simp) h name o ho
  intro found hfound n hn found' h
  obtain ⟨oo, hread, h⟩ := Except.bind_eq_ok_iff.mp h
  cases oo with
  | none =>
    cases h
    exact hfound
  | some p =>
    cases h
    intro k q hk
    rw [NameMap.get?_insert] at hk
    split at hk
    · rename_i heq
      subst heq
      cases hk
      exact ⟨hn, hread⟩
    · exact hfound k q hk

/-- Reads that do not fail, one after the other. -/
theorem exists_readEach_of {f : String → Option ConfigObject}
    (h : ∀ name ∈ names, read name = .ok (f name)) : ∃ os, readEach read names = .ok os ∧
      ∀ k, os.get? k = if k ∈ names then f k else none := by
  refine ⟨names.foldl (fun m n => (f n).elim m (m.insert n)) NameMap.empty, ?_,
    NameMap.get?_foldl_insert fun _ _ => .inl rfl⟩
  refine Except.foldlM_eq_ok (fun m n hn => ?_) NameMap.empty
  rw [h n hn]
  cases f n <;> rfl

/-- Look-ups that cannot fail, one after the other. -/
theorem exists_readEach (f : String → Option ConfigObject) (names : List String) :
    ∃ os, readEach (fun n => .ok (f n)) names = .ok os ∧
      ∀ k, os.get? k = if k ∈ names then f k else none :=
  exists_readEach_of fun _ _ => rfl

/-! ### Reading together -/

section Together

variable {s : Storage} {m : Snapshot}

/-- Reading the names of a collection gives the collection. -/
theorem readMultiple_eq {c : String}
    (h : ∃ os, s.readMultiple fs (some c) (m.collection c).names = .ok os ∧
      ∀ k, os.get? k = if k ∈ (m.collection c).names then m.object? c k else none) :
    s.readMultiple fs (some c) (m.collection c).names = .ok (m.collection c) := by
  obtain ⟨os, hos, hget⟩ := h
  rw [hos]
  refine congrArg Except.ok (NameMap.ext_get? fun k => ?_)
  rw [hget]
  split
  · rfl
  · rename_i hk
    rw [NameMap.mem_names_iff, Bool.not_eq_true, Option.isSome_eq_false_iff,
      Option.isNone_iff_eq_none] at hk
    exact hk.symm

/-- What is exported is known from the collections, in whatever order these are named. -/
theorem exportAll_eq {cs : List String}
    (hobjects : ∀ c, c = defaultCollection ∨ c ∈ cs → s.objects fs (some c) = .ok (m.collection c))
    (hcollections : s.collectionNames fs = .ok cs) (hcs : ∀ c, c ∈ cs ↔ c ∈ m.collectionNames) :
    s.exportAll fs = .ok m.exported := by
  let f (c : String) : Option Objects :=
    if (m.collection c).isEmpty then none else some (m.collection c)
  let start : Snapshot := NameMap.empty.insert defaultCollection (m.collection defaultCollection)
  have hfold : s.exportAll fs = .ok (cs.foldl (fun t c => (f c).elim t (t.insert c)) start) := by
    rw [Storage.exportAll, hobjects _ (.inl rfl), hcollections]
    refine Except.foldlM_eq_ok (fun t c hc => ?_) start
    rw [hobjects c (.inr hc)]
    by_cases hempty : (m.collection c).isEmpty <;> simp [f, hempty]
  rw [hfold]
  refine congrArg Except.ok (NameMap.ext_get? fun c => ?_)
  rw [NameMap.get?_foldl_insert, Snapshot.get?_exported]
  · simp only [hcs, Snapshot.mem_collectionNames]
    by_cases hc : c = defaultCollection
    · simp [hc, start]
    · by_cases he : (m.collection c).isEmpty <;>
        simp [hc, he, f, start, NameMap.get?_insert, Ne.symm hc]
  · intro c hc
    rw [hcs, Snapshot.mem_collectionNames] at hc
    exact .inl (by simp [start, NameMap.get?_insert, Ne.symm hc.1])

end Together

/-! ### Storages in memory -/

/-- A storage shows the objects of a snapshot: it has them in memory, as they are. -/
inductive Shows : Storage → Snapshot → Prop
  /-- An empty storage shows nothing. -/
  | null : Shows null NameMap.empty
  | memory (m : Snapshot) : Shows (memory m) m
  | view (m : Snapshot) : Shows (view m) m
  /-- A selected snapshot hides the active storage. -/
  | selected (m : Snapshot) (active : Storage) : Shows (selecting (some m) active) m
  | active {s : Storage} {m : Snapshot} (h : Shows s m) : Shows (selecting none s) m
  | within {s : Storage} {m : Snapshot} (c : String) (h : Shows s m) : Shows (within c s) m

namespace Shows

variable {m : Snapshot}

theorem holds (h : s.Shows m) (fs : Files) (c name : String) :
    s.holds fs (some c) name = .ok (m.object? c name).isSome := by
  induction h with
  | null | memory | view | selected => rfl
  | active _ ih => exact ih
  | within c' _ ih => exact ih

theorem read? (h : s.Shows m) (fs : Files) (c name : String) :
    s.read? fs (some c) name = .ok (m.object? c name) := by
  induction h with
  | null | memory | view | selected => rfl
  | active _ ih => exact ih
  | within c' _ ih => exact ih

theorem listNames (h : s.Shows m) (fs : Files) (c : String) :
    s.listNames fs (some c) = .ok (m.collection c).names := by
  induction h with
  | null | memory | view | selected => rfl
  | active _ ih => exact ih
  | within c' _ ih => exact ih

/-- Without a collection that is asked for, the names are those in the collection of the storage. -/
theorem listNames_none (h : s.Shows m) (fs : Files) :
    s.listNames fs none = .ok (m.collection s.collectionName).names := by
  cases h with
  | null | memory | view | selected => rfl
  | active h => exact h.listNames fs defaultCollection
  | within c h => exact h.listNames fs c

theorem collectionNames (h : s.Shows m) (fs : Files) :
    s.collectionNames fs = .ok m.collectionNames := by
  induction h with
  | null | memory | view | selected => rfl
  | active _ ih => exact ih
  | within c' _ ih => exact ih

theorem exists_readMultiple (h : s.Shows m) (fs : Files) (c : String) (names : List String) :
    ∃ os, s.readMultiple fs (some c) names = .ok os ∧
      ∀ k, os.get? k = if k ∈ names then m.object? c k else none := by
  induction h with
  | null => exact ⟨NameMap.empty, rfl, fun k => (ite_self _).symm⟩
  | memory m | view m | selected m => exact exists_readEach (m.object? c) names
  | @active s m h =>
    have hread : (fun n => (selecting none s).read? fs (some c) n) = fun n => .ok (m.object? c n) :=
      funext fun n => h.read? fs c n
    rw [Storage.readMultiple, hread]
    exact exists_readEach (m.object? c) names
  | within c' _ ih => exact ih

/-- All objects of a collection are those of the snapshot. -/
theorem readMultiple_names (h : s.Shows m) (fs : Files) (c : String) :
    s.readMultiple fs (some c) (m.collection c).names = .ok (m.collection c) :=
  readMultiple_eq (h.exists_readMultiple fs c (m.collection c).names)

theorem objects (h : s.Shows m) (fs : Files) (c : String) :
    s.objects fs (some c) = .ok (m.collection c) := by
  rw [Storage.objects, h.listNames]
  exact h.readMultiple_names fs c

/-- The export is that of the snapshot. -/
theorem exportAll (h : s.Shows m) (fs : Files) : s.exportAll fs = .ok m.exported :=
  exportAll_eq (fun c _ => h.objects fs c) (h.collectionNames fs) fun _ => Iff.rfl

end Shows

/-! ### Other storages -/

/-- Only what was asked for is read. -/
theorem mem_of_readMultiple {s : Storage} {c : Option String} {names : List String} {os : Objects}
    (h : s.readMultiple fs c names = .ok os) : ∀ k o, os.get? k = some o → k ∈ names := by
  induction s generalizing c names os with
  | null =>
    cases h
    intro k o ho
    cases ho
  | memory m => exact fun k o ho => (read_of_readEach h ho).1
  | directory dir => exact fun k o ho => (read_of_readEach h ho).1
  | view m => exact fun k o ho => (read_of_readEach h ho).1
  | merged first second ihf ihs =>
    obtain ⟨others, hs, h⟩ := Except.bind_eq_ok_iff.mp h
    obtain ⟨found, hf, h⟩ := Except.bind_eq_ok_iff.mp h
    cases h
    intro k o ho
    rcases NameMap.get?_eq_or_of_union ho with ho | ho
    · exact ihf hf k o ho
    · exact ihs hs k o ho
  | overriding recipe wrapped _ ihw =>
    obtain ⟨found, hw, h⟩ := Except.bind_eq_ok_iff.mp h
    obtain ⟨replaced, hr, h⟩ := Except.bind_eq_ok_iff.mp h
    cases h
    intro k o ho
    rcases NameMap.get?_eq_or_of_union ho with ho | ho
    · -- Only what the wrapped storage gave is looked up in the recipe.
      obtain ⟨p, hp⟩ := Option.isSome_iff_exists.mp
        ((NameMap.mem_names_iff ..).mp (read_of_readEach hr ho).1)
      exact ihw hw k p hp
    · exact ihw hw k o ho
  | selecting selected active _ => exact fun k o ho => (read_of_readEach h ho).1
  | within c' s ih => exact ih h

/-! ### Where objects come from -/

/-- All objects that a storage may give have a property. -/
def Holds (Q : ConfigObject → Prop) : Storage → Prop
  | null => True
  | memory m => m.Holds Q
  | directory _ => ∀ t o, ConfigObject.decode t = .ok o → Q o
  | view m => m.Holds Q
  | merged first second => Holds Q first ∧ Holds Q second
  | overriding recipe wrapped => Holds Q recipe ∧ Holds Q wrapped
  | selecting selected active => (∀ m ∈ selected, Snapshot.Holds Q m) ∧ Holds Q active
  | within _ s => Holds Q s

namespace Holds

theorem readFile? (h : ∀ t o, ConfigObject.decode t = .ok o → Q o) {path : Path}
    {o : ConfigObject} (ho : Storage.readFile? fs path = .ok (some o)) : Q o := by
  rw [Storage.readFile?] at ho
  split at ho
  · cases ho
  · cases ho
  · split at ho
    · rename_i hd
      cases ho
      exact h _ _ hd
    · cases ho

/-- An object that was read came from the storage. -/
theorem read? (h : s.Holds Q) {c : Option String} {name : String} {o : ConfigObject}
    (ho : s.read? fs c name = .ok (some o)) : Q o := by
  induction s generalizing c with
  | null => cases ho
  | memory m => exact h _ _ _ (Except.ok.inj ho)
  | directory dir => exact readFile? h ho
  | view m => exact h _ _ _ (Except.ok.inj ho)
  | merged first second ihf ihs =>
    obtain ⟨oo, hf, ho⟩ := Except.bind_eq_ok_iff.mp ho
    cases oo with
    | some p =>
      cases ho
      exact ihf h.1 hf
    | none => exact ihs h.2 ho
  | overriding recipe wrapped ihr ihw =>
    obtain ⟨inWrapped, -, ho⟩ := Except.bind_eq_ok_iff.mp ho
    cases inWrapped with
    | false => exact ihw h.2 ho
    | true =>
      obtain ⟨inRecipe, -, ho⟩ := Except.bind_eq_ok_iff.mp ho
      cases inRecipe with
      | false => exact ihw h.2 ho
      | true => exact ihr h.1 ho
  | selecting selected active ih =>
    cases selected with
    | some m => exact h.1 m rfl _ _ _ (Except.ok.inj ho)
    | none => exact ih h.2 ho
  | within c' s ih => exact ih h ho

theorem readEach {s : Storage} {c : Option String} (h : s.Holds Q)
    (hos : Storage.readEach (fun n => s.read? fs c n) names = .ok os) :
    ∀ k o, os.get? k = some o → Q o := by
  intro k o ho
  exact h.read? (read_of_readEach hos ho).2

/-- Objects that were read together came from the storage. -/
theorem readMultiple (h : s.Holds Q) {c : Option String} {names : List String} {os : Objects}
    (hos : s.readMultiple fs c names = .ok os) : ∀ k o, os.get? k = some o → Q o := by
  induction s generalizing c names os with
  | null =>
    cases hos
    intro k o ho
    cases ho
  | memory m => exact readEach h hos
  | directory dir => exact readEach h hos
  | view m => exact readEach h hos
  | merged first second ihf ihs =>
    obtain ⟨others, hs, hos⟩ := Except.bind_eq_ok_iff.mp hos
    obtain ⟨found, hf, hos⟩ := Except.bind_eq_ok_iff.mp hos
    cases hos
    intro k o ho
    rcases NameMap.get?_eq_or_of_union ho with ho | ho
    · exact ihf h.1 hf k o ho
    · exact ihs h.2 hs k o ho
  | overriding recipe wrapped _ ihw =>
    obtain ⟨found, hw, hos⟩ := Except.bind_eq_ok_iff.mp hos
    obtain ⟨replaced, hr, hos⟩ := Except.bind_eq_ok_iff.mp hos
    cases hos
    intro k o ho
    rcases NameMap.get?_eq_or_of_union ho with ho | ho
    · exact readEach h.1 hr k o ho
    · exact ihw h.2 hw k o ho
  | selecting selected active _ => exact readEach h hos
  | within c' s ih => exact ih h hos

/-- All objects of a collection came from the storage. -/
theorem objects (h : s.Holds Q) {c : Option String} {os : Objects}
    (hos : s.objects fs c = .ok os) : ∀ k o, os.get? k = some o → Q o := by
  obtain ⟨names, -, hos⟩ := Except.bind_eq_ok_iff.mp hos
  exact h.readMultiple hos

theorem mergeAll {l : List Storage} (h : ∀ s ∈ l, s.Holds Q) : (Storage.mergeAll l).Holds Q := by
  cases l with
  | nil => trivial
  | cons first rest =>
    obtain ⟨hfirst, hrest⟩ := List.forall_mem_cons.mp h
    rw [Storage.mergeAll]
    clear h
    induction rest generalizing first with
    | nil => exact hfirst
    | cons second rest ih =>
      obtain ⟨hsecond, hrest⟩ := List.forall_mem_cons.mp hrest
      exact ih (merged first second) ⟨hfirst, hsecond⟩ hrest

end Holds

/-- Of any storage, its objects have the property that all objects have. -/
theorem holds_of_forall (hQ : ∀ o, Q o) (s : Storage) : s.Holds Q := by
  induction s with
  | null => trivial
  | memory m => exact fun _ _ o _ => hQ o
  | directory dir => exact fun _ o _ => hQ o
  | view m => exact fun _ _ o _ => hQ o
  | merged first second ihf ihs => exact ⟨ihf, ihs⟩
  | overriding recipe wrapped ihr ihw => exact ⟨ihr, ihw⟩
  | selecting selected active ih => exact ⟨fun _ _ _ _ o _ => hQ o, ih⟩
  | within c s ih => exact ih

end Storage

end Cookbook
