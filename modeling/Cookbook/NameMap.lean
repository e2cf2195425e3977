/-!
# Maps from names

A `NameMap` holds values under pairwise different names, in ascending order of the names. It is the
shape of everything this library lists by name: the objects of a collection, the collections of a
snapshot, the extensions of a catalog. Since the order is fixed by the names, two maps that answer
every look-up alike are the same map.

## Main definitions

* `NameMap`: the entries together with the proof that their names ascend.
* `NameMap.get?`, `insert`, `erase`, `filter`, `mapValues`, `union`: the operations.

## Main statements

* `NameMap.get?_insert`, `NameMap.get?_erase`, `NameMap.get?_filter`: what each operation does to
  the look-ups.
* `NameMap.ext_get?`: a map is determined by its look-ups.
-/

namespace Cookbook

universe u v

/-- Values under pairwise different names, in ascending order of the names. -/
structure NameMap (α : Type u) where
  /-- The names with their values, names ascending. -/
  entries : List (String × α)
  /-- Each name comes before all names after it. -/
  ascending : (entries.map Prod.fst).Pairwise (· < ·)

namespace NameMap

variable {α : Type u} {β : Type v}

/-! ### Entry lists -/

/-- The value under a name in a list of entries. -/
def lookup (k : String) : List (String × α) → Option α
  | [] => none
  | (k', v) :: rest => if k' = k then some v else lookup k rest

/-- Put a value under a name at its place in an ascending list, replacing what was there. -/
def insertEntry (k : String) (v : α) : List (String × α) → List (String × α)
  | [] => [(k, v)]
  | (k', v') :: rest =>
    if k < k' then (k, v) :: (k', v') :: rest
    else if k' = k then (k, v) :: rest
    else (k', v') :: insertEntry k v rest

theorem mem_insertEntry {k : String} {v : α} {e : String × α} {l : List (String × α)}
    (h : e ∈ insertEntry k v l) : e = (k, v) ∨ e ∈ l := by
  induction l with
  | nil => simpa [insertEntry] using h
  | cons hd tl ih =>
    obtain ⟨k', v'⟩ := hd
    simp only [insertEntry] at h
    split at h
    · simpa using h
    · split at h
      · simp only [List.mem_cons] at h ⊢
        exact h.imp id .inr
      · simp only [List.mem_cons] at h ⊢
        rcases h with h | h
        · exact .inr (.inl h)
        · exact (ih h).imp id .inr

theorem ascending_insertEntry {k : String} {v : α} {l : List (String × α)}
    (h : (l.map Prod.fst).Pairwise (· < ·)) :
    ((insertEntry k v l).map Prod.fst).Pairwise (· < ·) := by
  induction l with
  | nil => simp [insertEntry]
  | cons hd tl ih =>
    obtain ⟨k', v'⟩ := hd
    simp only [List.map_cons, List.pairwise_cons] at h
    simp only [insertEntry]
    split
    · rename_i hlt
      simp only [List.map_cons, List.pairwise_cons, List.mem_cons]
      refine ⟨?_, h⟩
      rintro a (rfl | ha)
      · exact hlt
      · exact String.lt_trans hlt (h.1 a ha)
    · split
      · rename_i heq
        subst heq
        simpa using h
      · rename_i hnlt hne
        simp only [List.map_cons, List.pairwise_cons]
        refine ⟨?_, ih h.2⟩
        intro a ha
        obtain ⟨e, he, rfl⟩ := List.mem_map.1 ha
        rcases mem_insertEntry he with rfl | he
        · by_cases hlt : k' < k
          · exact hlt
          · exact absurd (String.le_antisymm (String.not_lt.1 hnlt) (String.not_lt.1 hlt)) hne
        · exact h.1 _ (List.mem_map_of_mem he)

theorem lookup_insertEntry {k : String} {v : α} {l : List (String × α)} (n : String) :
    lookup n (insertEntry k v l) = if k = n then some v else lookup n l := by
  induction l with
  | nil => simp [insertEntry, lookup]
  | cons hd tl ih =>
    obtain ⟨k', v'⟩ := hd
    simp only [insertEntry]
    split
    · simp [lookup]
    · split
      · rename_i heq
        subst heq
        simp only [lookup]
        split <;> simp_all
      · simp only [lookup, ih]
        split <;> split <;> simp_all

/-- No name of an ascending list comes twice, so the head's name is not found further on. -/
theorem lookup_eq_none_of_lt {k : String} {l : List (String × α)}
    (h : ∀ a ∈ l.map Prod.fst, k < a) : lookup k l = none := by
  induction l with
  | nil => rfl
  | cons hd tl ih =>
    simp only [List.map_cons, List.mem_cons, forall_eq_or_imp] at h
    have hne : hd.1 ≠ k := fun he => String.lt_irrefl k (he ▸ h.1)
    simp [lookup, hne, ih h.2]

theorem lookup_filter {p : String × α → Bool} {l : List (String × α)}
    (h : (l.map Prod.fst).Pairwise (· < ·)) (n : String) :
    lookup n (l.filter p) = (lookup n l).filter (fun v => p (n, v)) := by
  induction l with
  | nil => rfl
  | cons hd tl ih =>
    obtain ⟨k, v⟩ := hd
    simp only [List.map_cons, List.pairwise_cons] at h
    by_cases hp : p (k, v)
    · simp only [List.filter_cons_of_pos hp, lookup]
      split
      · rename_i hk
        subst hk
        simp [Option.filter, hp]
      · exact ih h.2
    · simp only [List.filter_cons_of_neg hp, lookup, ih h.2]
      split
      · rename_i hk
        subst hk
        simp [Option.filter, hp, lookup_eq_none_of_lt h.1]
      · rfl

/-! ### Maps -/

/-- The map that holds nothing. -/
def empty : NameMap α := ⟨[], List.Pairwise.nil⟩

instance : Inhabited (NameMap α) := ⟨empty⟩

/-- The value under a name. -/
def get? (m : NameMap α) (k : String) : Option α := lookup k m.entries

/-- Whether the map has a value under the name. -/
def contains (m : NameMap α) (k : String) : Bool := (m.get? k).isSome

/-- Put a value under a name, replacing what was there. -/
def insert (m : NameMap α) (k : String) (v : α) : NameMap α :=
  ⟨insertEntry k v m.entries, ascending_insertEntry m.ascending⟩

/-- Keep the entries that pass a test. -/
def filter (p : String × α → Bool) (m : NameMap α) : NameMap α :=
  ⟨m.entries.filter p, m.ascending.sublist (List.filter_sublist.map _)⟩

/-- Take a name out. -/
def erase (m : NameMap α) (k : String) : NameMap α := m.filter (fun e => e.1 ≠ k)

/-- Change every value, keeping its name. -/
def mapValues (f : String → α → β) (m : NameMap α) : NameMap β :=
  ⟨m.entries.map (fun e => (e.1, f e.1 e.2)), by
    rw [List.map_map]; exact m.ascending⟩

/-- Insert the entries of a list one after the other; of two entries with one name the later
stays. -/
def insertAll (m : NameMap α) (l : List (String × α)) : NameMap α :=
  l.foldl (fun m e => m.insert e.1 e.2) m

/-- The map of a list of entries; of two entries with one name the later stays. -/
def ofList (l : List (String × α)) : NameMap α := empty.insertAll l

/-- Both maps together; under a common name the first map's value stays. -/
def union (m n : NameMap α) : NameMap α := n.insertAll m.entries

/-- The names, ascending. -/
def names (m : NameMap α) : List String := m.entries.map Prod.fst

/-- The values, in the order of their names. -/
def values (m : NameMap α) : List α := m.entries.map Prod.snd

/-- The number of entries. -/
def size (m : NameMap α) : Nat := m.entries.length

/-- Whether the map holds nothing. -/
def isEmpty (m : NameMap α) : Bool := m.entries.isEmpty

/-- Names in ascending order, each once. -/
def distinctNames (l : List String) : List String := (ofList (l.map (·, ()))).names

/-! ### Look-ups after each operation -/

@[simp] theorem get?_empty (k : String) : (empty : NameMap α).get? k = none := rfl

theorem get?_insert (m : NameMap α) (k : String) (v : α) (n : String) :
    (m.insert k v).get? n = if k = n then some v else m.get? n :=
  lookup_insertEntry n

@[simp] theorem get?_insert_self (m : NameMap α) (k : String) (v : α) :
    (m.insert k v).get? k = some v := by simp [get?_insert]

theorem get?_filter (p : String × α → Bool) (m : NameMap α) (n : String) :
    (m.filter p).get? n = (m.get? n).filter (fun v => p (n, v)) :=
  lookup_filter m.ascending n

theorem get?_erase (m : NameMap α) (k n : String) :
    (m.erase k).get? n = if k = n then none else m.get? n := by
  rw [erase, get?_filter]
  by_cases h : k = n
  · subst h
    cases m.get? k <;> simp [Option.filter]
  · cases m.get? n <;> simp [Option.filter, h, Ne.symm h]

theorem get?_mapValues (f : String → α → β) (m : NameMap α) (n : String) :
    (m.mapValues f).get? n = (m.get? n).map (f n) := by
  obtain ⟨l, hl⟩ := m
  simp only [mapValues, get?]
  clear hl
  induction l with
  | nil => rfl
  | cons hd tl ih =>
    simp only [List.map_cons, lookup]
    split
    · rename_i h
      simp [h]
    · exact ih

/-- A name is listed exactly when a look-up finds it. -/
theorem mem_names_iff (m : NameMap α) (n : String) : n ∈ m.names ↔ (m.get? n).isSome := by
  obtain ⟨l, hl⟩ := m
  simp only [names, get?]
  clear hl
  induction l with
  | nil => simp [lookup]
  | cons hd tl ih =>
    simp only [List.map_cons, List.mem_cons, lookup, ih]
    by_cases h : hd.1 = n
    · simp [h]
    · simp [h, Ne.symm h]

theorem isSome_get?_insertAll (l : List (String × α)) (m : NameMap α) (n : String) :
    ((m.insertAll l).get? n).isSome ↔ (m.get? n).isSome ∨ n ∈ l.map Prod.fst := by
  induction l generalizing m with
  | nil => simp [insertAll]
  | cons e l ih =>
    have := ih (m.insert e.1 e.2)
    simp only [insertAll, List.foldl_cons, List.map_cons, List.mem_cons] at this ⊢
    rw [this, get?_insert]
    by_cases h : e.1 = n
    · simp [h]
    · simp [h, Ne.symm h]

@[simp] theorem mem_distinctNames {l : List String} {n : String} :
    n ∈ distinctNames l ↔ n ∈ l := by
  rw [distinctNames, mem_names_iff, ofList, isSome_get?_insertAll]
  simp [Function.comp_def]

/-- A map is determined by its look-ups. -/
theorem ext_get? {m n : NameMap α} (h : ∀ k, m.get? k = n.get? k) : m = n := by
  obtain ⟨l, hl⟩ := m
  obtain ⟨r, hr⟩ := n
  simp only [get?] at h
  suffices l = r by subst this; rfl
  induction l generalizing r with
  | nil =>
    cases r with
    | nil => rfl
    | cons hd tl => simpa [lookup] using h hd.1
  | cons a l ih =>
    cases r with
    | nil => simpa [lookup] using h a.1
    | cons b r =>
      obtain ⟨a, va⟩ := a
      obtain ⟨b, vb⟩ := b
      simp only [List.map_cons, List.pairwise_cons] at hl hr
      have hab : a = b := by
        by_cases hlt : a < b
        · have := h a
          rw [lookup, if_pos rfl, lookup,
            if_neg (fun he : b = a => absurd (he ▸ hlt) (String.lt_irrefl b)),
            lookup_eq_none_of_lt (fun c hc => String.lt_trans hlt (hr.1 c hc))] at this
          cases this
        · by_cases hgt : b < a
          · have := h b
            rw [lookup, if_neg (fun he : a = b => absurd (he ▸ hgt) (String.lt_irrefl a)),
              lookup, if_pos rfl,
              lookup_eq_none_of_lt (fun c hc => String.lt_trans hgt (hl.1 c hc))] at this
            cases this
          · exact String.le_antisymm (String.not_lt.1 hgt) (String.not_lt.1 hlt)
      subst hab
      have hv : va = vb := by
        have := h a
        simpa [lookup] using this
      subst hv
      have : l = r := by
        apply ih hl.2 r hr.2
        intro k
        by_cases hk : a = k
        · subst hk
          rw [lookup_eq_none_of_lt hl.1, lookup_eq_none_of_lt hr.1]
        · have := h k
          simpa [lookup, hk] using this
      rw [this]

end NameMap

end Cookbook
