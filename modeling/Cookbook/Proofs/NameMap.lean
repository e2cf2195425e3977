import Cookbook.NameMap
import Mathlib.Data.List.Nodup

/-!
# Entries, names and look-ups of maps

`NameMap` is determined by its look-ups. Here the other views of a map, its list of entries and its
list of names, are tied to the look-ups, so that what is computed by going through the entries can
be stated name by name.

## Main results

* `NameMap.mem_entries_iff`: the entries are what look-ups find.
* `NameMap.names_eq_iff`: two maps list the same names exactly if their look-ups find something
  under the same names.
* `NameMap.mem_or_mem_of_get?_insertAll`: where an entry of a map made from a list comes from.
-/

namespace Cookbook

namespace NameMap

universe u v

variable {α : Type u} {β : Type v}

/-! ### Entries -/

theorem lookup_eq_some_of_mem {k : String} {v : α} {l : List (String × α)}
    (h : (l.map Prod.fst).Pairwise (· < ·)) (hm : (k, v) ∈ l) : lookup k l = some v := by
  induction l with
  | nil => cases hm
  | cons e l ih =>
    rw [List.map_cons, List.pairwise_cons] at h
    rcases List.mem_cons.mp hm with rfl | hm
    · simp [lookup]
    · have hlt := h.1 k (List.mem_map_of_mem hm)
      have hne : e.1 ≠ k := fun he => String.lt_irrefl k (he ▸ hlt)
      rw [lookup, if_neg hne]
      exact ih h.2 hm

theorem mem_of_lookup_eq_some {k : String} {v : α} {l : List (String × α)}
    (h : lookup k l = some v) : (k, v) ∈ l := by
  induction l with
  | nil => cases h
  | cons e l ih =>
    rw [lookup] at h
    split at h
    · rename_i hk
      subst hk
      cases h
      exact List.mem_cons_self ..
    · exact List.mem_cons_of_mem _ (ih h)

/-- The entries of a map are what its look-ups find. -/
theorem mem_entries_iff {m : NameMap α} {k : String} {v : α} :
    (k, v) ∈ m.entries ↔ m.get? k = some v :=
  ⟨lookup_eq_some_of_mem m.ascending, mem_of_lookup_eq_some⟩

/-- A property of all entries, as one of all look-ups. -/
theorem all_entries_iff {m : NameMap α} {p : String × α → Bool} :
    m.entries.all p = true ↔ ∀ k v, m.get? k = some v → p (k, v) = true := by
  rw [List.all_eq_true]
  constructor
  · intro h k v hk
    exact h (k, v) (mem_entries_iff.mpr hk)
  · rintro h ⟨k, v⟩ hm
    exact h k v (mem_entries_iff.mp hm)

/-- A map is empty if no look-up finds anything. -/
theorem isEmpty_iff {m : NameMap α} : m.isEmpty = true ↔ ∀ k, m.get? k = none := by
  constructor
  · intro h k
    have : m.entries = [] := List.isEmpty_iff.mp h
    rw [get?, this]
    rfl
  · intro h
    rw [isEmpty, List.isEmpty_iff, List.eq_nil_iff_forall_not_mem]
    rintro ⟨k, v⟩ hm
    have := mem_entries_iff.mp hm
    rw [h k] at this
    cases this

/-- A name that is new comes in between, and everything else stays. -/
theorem exists_insertEntry {k : String} {v : α} {l : List (String × α)} (h : lookup k l = none) :
    ∃ before after, l = before ++ after ∧ insertEntry k v l = before ++ (k, v) :: after := by
  induction l with
  | nil => exact ⟨[], [], rfl, rfl⟩
  | cons e l ih =>
    rw [lookup] at h
    split at h
    · cases h
    · rename_i hne
      rw [insertEntry]
      split
      · exact ⟨[], e :: l, rfl, rfl⟩
      · obtain ⟨before, after, hl, hinsert⟩ := ih h
        exact ⟨e :: before, after, congrArg (e :: ·) hl, congrArg (e :: ·) hinsert⟩

/-! ### Names -/

theorem nodup_names (m : NameMap α) : m.names.Nodup := by
  refine m.ascending.imp ?_
  rintro a b h rfl
  exact String.lt_irrefl _ h

theorem names_mapValues (f : String → α → β) (m : NameMap α) :
    (m.mapValues f).names = m.names := by
  simp [names, mapValues, Function.comp_def]

/-- Two maps list the same names exactly if they have something under the same names. -/
theorem names_eq_iff {m : NameMap α} {n : NameMap β} :
    m.names = n.names ↔ ∀ k, (m.get? k).isSome = (n.get? k).isSome := by
  constructor
  · intro h k
    rw [Bool.eq_iff_iff, ← mem_names_iff, ← mem_names_iff, h]
  · intro h
    -- Forgetting the values makes the two maps equal.
    have hmap : (m.mapValues fun _ _ => ()) = n.mapValues fun _ _ => () := by
      refine ext_get? fun k => ?_
      have hk := h k
      rw [get?_mapValues, get?_mapValues]
      cases hm : m.get? k <;> cases hn : n.get? k <;> simp_all
    rw [← names_mapValues (fun _ _ => ()) m, hmap, names_mapValues]

theorem distinctNames_congr {l l' : List String} (h : ∀ n, n ∈ l ↔ n ∈ l') :
    distinctNames l = distinctNames l' := by
  refine names_eq_iff.mpr fun k => ?_
  rw [Bool.eq_iff_iff, ← mem_names_iff, ← mem_names_iff]
  exact mem_distinctNames.trans ((h k).trans mem_distinctNames.symm)

/-! ### Maps made from lists -/

theorem mem_or_mem_of_get?_insertAll {l : List (String × α)} {m : NameMap α} {k : String} {v : α}
    (h : (m.insertAll l).get? k = some v) : (k, v) ∈ l ∨ m.get? k = some v := by
  induction l generalizing m with
  | nil => exact .inr h
  | cons e l ih =>
    rcases ih h with hl | hm
    · exact .inl (List.mem_cons_of_mem _ hl)
    · rw [get?_insert] at hm
      split at hm
      · rename_i hk
        cases hm
        subst hk
        exact .inl (List.mem_cons_self ..)
      · exact .inr hm

theorem get?_insertAll_of_not_mem {l : List (String × α)} {m : NameMap α} {k : String}
    (h : k ∉ l.map Prod.fst) : (m.insertAll l).get? k = m.get? k := by
  induction l generalizing m with
  | nil => rfl
  | cons e l ih =>
    rw [List.map_cons, List.mem_cons, not_or] at h
    rw [show m.insertAll (e :: l) = (m.insert e.1 e.2).insertAll l from rfl, ih h.2, get?_insert,
      if_neg (Ne.symm h.1)]

theorem get?_insertAll_of_mem {l : List (String × α)} {m : NameMap α} {k : String} {v : α}
    (hm : (k, v) ∈ l) (h : ∀ w, (k, w) ∈ l → w = v) : (m.insertAll l).get? k = some v := by
  induction l generalizing m with
  | nil => cases hm
  | cons e l ih =>
    rw [show m.insertAll (e :: l) = (m.insert e.1 e.2).insertAll l from rfl]
    by_cases hk : k ∈ l.map Prod.fst
    · obtain ⟨⟨k', w⟩, hw, rfl⟩ := List.mem_map.mp hk
      have hwv : w = v := h w (List.mem_cons_of_mem _ hw)
      exact ih (hwv ▸ hw) fun w hw => h w (List.mem_cons_of_mem _ hw)
    · rw [get?_insertAll_of_not_mem hk]
      rcases List.mem_cons.mp hm with rfl | hm
      · exact get?_insert_self ..
      · exact absurd (List.mem_map_of_mem hm) hk

theorem mem_of_get?_ofList {l : List (String × α)} {k : String} {v : α}
    (h : (ofList l).get? k = some v) : (k, v) ∈ l := by
  rcases mem_or_mem_of_get?_insertAll h with h | h
  · exact h
  · cases h

theorem mem_names_ofList {l : List (String × α)} {k : String} :
    k ∈ (ofList l).names ↔ k ∈ l.map Prod.fst := by
  rw [mem_names_iff, ofList, isSome_get?_insertAll]
  simp

/-- What a map made from a list has under a name, if the list has one value for each name. -/
theorem get?_ofList_of_mem {l : List (String × α)} {k : String} {v : α} (hm : (k, v) ∈ l)
    (h : ∀ w, (k, w) ∈ l → w = v) : (ofList l).get? k = some v :=
  get?_insertAll_of_mem hm h

/-- A map made from a list has what is in the list if the names in it differ. -/
theorem get?_ofList_iff {l : List (String × α)} (h : (l.map Prod.fst).Nodup) {k : String} {v : α} :
    (ofList l).get? k = some v ↔ (k, v) ∈ l := by
  refine ⟨mem_of_get?_ofList, fun hm => get?_ofList_of_mem hm fun w hw => ?_⟩
  exact congrArg Prod.snd (List.inj_on_of_nodup_map h hw hm rfl)

/-- A map made from a list has as many entries if the names in the list differ. -/
theorem size_ofList {l : List (String × α)} (h : (l.map Prod.fst).Nodup) :
    (ofList l).size = l.length := by
  have hperm : (ofList l).names.Perm (l.map Prod.fst) :=
    (List.perm_ext_iff_of_nodup (nodup_names _) h).mpr fun _ => mem_names_ofList
  simpa [names, size] using hperm.length_eq

/-- Under a common name the first map's value counts. -/
theorem get?_union {m n : NameMap α} {k : String} :
    (m.union n).get? k = (m.get? k).or (n.get? k) := by
  rw [union]
  cases hm : m.get? k with
  | some v =>
    refine get?_insertAll_of_mem (mem_entries_iff.mpr hm) fun w hw => ?_
    exact Option.some.inj ((mem_entries_iff.mp hw).symm.trans hm)
  | none =>
    refine get?_insertAll_of_not_mem fun hk => ?_
    have hnames : k ∈ m.names := hk
    rw [mem_names_iff, hm] at hnames
    cases hnames

theorem ofList_entries (m : NameMap α) : ofList m.entries = m := by
  refine ext_get? fun k => ?_
  cases hm : m.get? k with
  | none =>
    rw [Option.eq_none_iff_forall_ne_some]
    intro v hv
    rw [mem_entries_iff.mp (mem_of_get?_ofList hv)] at hm
    cases hm
  | some v =>
    refine get?_ofList_of_mem (mem_entries_iff.mpr hm) fun w hw => ?_
    rw [mem_entries_iff, hm] at hw
    exact (Option.some.inj hw).symm

/-- Inserting what a function has for some names, where the map had nothing else under them. -/
theorem get?_foldl_insert {f : String → Option α} {names : List String} {acc : NameMap α}
    (hacc : ∀ k ∈ names, acc.get? k = none ∨ acc.get? k = f k) (k : String) :
    (names.foldl (fun m n => (f n).elim m (m.insert n)) acc).get? k
      = if k ∈ names then f k else acc.get? k := by
  induction names generalizing acc with
  | nil => simp
  | cons n names ih =>
    have hstep : ∀ k, ((f n).elim acc (acc.insert n)).get? k
        = if n = k then f k else acc.get? k := by
      intro k
      have hn := hacc n (List.mem_cons_self ..)
      cases hf : f n with
      | none =>
        rw [hf, or_self] at hn
        rw [Option.elim_none]
        split
        · rename_i heq
          rw [← heq, hn, hf]
        · rfl
      | some v =>
        rw [Option.elim_some, get?_insert]
        split
        · rename_i heq
          rw [← heq, hf]
        · rfl
    rw [List.foldl_cons, ih, hstep]
    · by_cases heq : n = k
      · simp [heq]
      · simp [heq, Ne.symm heq]
    · intro k hk
      rw [hstep]
      split
      · exact .inr rfl
      · exact hacc k (List.mem_cons_of_mem _ hk)

theorem get?_eq_or_of_union {m n : NameMap α} {k : String} {v : α}
    (h : (m.union n).get? k = some v) : m.get? k = some v ∨ n.get? k = some v := by
  rw [get?_union, Option.or_eq_some_iff] at h
  exact h.imp_right And.right

end NameMap

end Cookbook
