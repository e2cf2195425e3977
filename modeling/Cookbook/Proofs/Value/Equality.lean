import Cookbook.Yaml.Value
import Mathlib.Data.List.Basic

/-!
# Equality of values

`Value.same` compares mappings as `keys → values` and not as lists of entries. It is reflexive and
transitive whatever the values are. It is symmetric only where no mapping has a key twice: of
`{a: 1, a: 1}` every entry is in `{a: 1, b: 2}`, and the lengths agree, but not the other way round.

So values with repeated keys are kept out by a predicate, `Value.isWellFormed`, wherever symmetry is
needed, and nowhere else. Restoring a configuration needs reflexivity and transitivity alone; that
the same extensions are installed before and after needs symmetry as well.

## Main definitions

* `Value.isWellFormed`, `Mapping.isWellFormed`: no mapping has a key twice, at any depth.

## Main results

* `Value.same_refl`, `Value.same_trans`: equality is a preorder.
* `Value.same_symm`: on well-formed values it is an equivalence.
* `Mapping.exists_getName?_of_same`: equal mappings have equal values under each name.
-/

namespace Cookbook

theorem Binary64.same_refl (x : Binary64) : x.same x = true := by
  cases x <;> simp [Binary64.same]

theorem Binary64.same_trans {x y z : Binary64} (hxy : x.same y = true) (hyz : y.same z = true) :
    x.same z = true := by
  cases x <;> cases y <;> cases z <;> simp_all [Binary64.same]
  obtain ⟨⟨rfl, rfl⟩, h | h⟩ := hxy <;> grind

theorem Binary64.same_symm {x y : Binary64} (h : x.same y = true) : y.same x = true := by
  cases x <;> cases y <;> simp_all [Binary64.same]
  grind

namespace Value

/-! ### Entries -/

theorem sameEntries_iff {xs ys : List (Value × Value)} :
    sameEntries xs ys = true ↔ ∀ e ∈ xs, ∃ f ∈ ys, e.1.same f.1 = true ∧ e.2.same f.2 = true := by
  induction xs with
  | nil => simp [sameEntries]
  | cons e xs ih => simp [sameEntries, ih]

/-! ### A preorder -/

mutual

theorem same_refl : ∀ v : Value, v.same v = true
  | .null => rfl
  | .bool b => by simp [same]
  | .int n => by simp [same]
  | .float x => x.same_refl
  | .string s => by simp [same]
  | .seq xs => by simp [same, sameItems_refl xs]
  | .map xs => by simp [same, sameEntries_of_subset xs fun e he => he]
  | .tagged t v => by simp [same, same_refl v]

theorem sameItems_refl : ∀ xs : List Value, sameItems xs xs = true
  | [] => rfl
  | x :: xs => by simp [sameItems, same_refl x, sameItems_refl xs]

theorem sameEntries_of_subset : ∀ (xs : List (Value × Value)) {ys : List (Value × Value)},
    (∀ e ∈ xs, e ∈ ys) → sameEntries xs ys = true
  | [], _, _ => rfl
  | (k, v) :: xs, ys, h => by
    have hrest := sameEntries_of_subset xs fun e he => h e (List.mem_cons_of_mem _ he)
    simp only [sameEntries, Bool.and_eq_true, List.any_eq_true, hrest, and_true]
    exact ⟨(k, v), h _ (List.mem_cons_self ..), same_refl k, same_refl v⟩

end

mutual

theorem same_trans : ∀ {u v w : Value}, u.same v = true → v.same w = true → u.same w = true
  | u, v, w, huv, hvw => by
    cases u <;> cases v <;> simp only [same, Bool.false_eq_true] at huv <;>
      cases w <;> simp only [same, Bool.false_eq_true] at hvw ⊢
    · simp_all
    · simp_all
    · exact Binary64.same_trans huv hvw
    · simp_all
    · exact sameItems_trans huv hvw
    · simp only [Bool.and_eq_true, beq_iff_eq] at huv hvw ⊢
      exact ⟨huv.1.trans hvw.1, sameEntries_trans huv.2 hvw.2⟩
    · simp only [Bool.and_eq_true, beq_iff_eq] at huv hvw ⊢
      exact ⟨huv.1.trans hvw.1, same_trans huv.2 hvw.2⟩

theorem sameItems_trans : ∀ {xs ys zs : List Value}, sameItems xs ys = true →
    sameItems ys zs = true → sameItems xs zs = true
  | [], [], _, _, h => h
  | x :: xs, y :: ys, [], _, h => by simp [sameItems] at h
  | x :: xs, y :: ys, z :: zs, hxy, hyz => by
    simp only [sameItems, Bool.and_eq_true] at hxy hyz ⊢
    exact ⟨same_trans hxy.1 hyz.1, sameItems_trans hxy.2 hyz.2⟩

theorem sameEntries_trans : ∀ {xs ys zs : List (Value × Value)}, sameEntries xs ys = true →
    sameEntries ys zs = true → sameEntries xs zs = true
  | [], _, _, _, _ => rfl
  | (k, v) :: xs, ys, zs, hxy, hyz => by
    simp only [sameEntries, Bool.and_eq_true, List.any_eq_true] at hxy ⊢
    obtain ⟨⟨y, hy, hky, hvy⟩, hrest⟩ := hxy
    obtain ⟨z, hz, hkz, hvz⟩ := sameEntries_iff.mp hyz y hy
    exact ⟨⟨z, hz, same_trans hky hkz, same_trans hvy hvz⟩, sameEntries_trans hrest hyz⟩

end

/-! ### Well-formed values -/

mutual

/-- No mapping in the value has a key twice. -/
def isWellFormed : Value → Bool
  | .seq items => areItemsWellFormed items
  | .map entries => areEntriesWellFormed entries
  | .tagged _ v => v.isWellFormed
  | _ => true

/-- No mapping in the items has a key twice. -/
def areItemsWellFormed : List Value → Bool
  | [] => true
  | x :: xs => x.isWellFormed && areItemsWellFormed xs

/-- The keys of the entries are different, and no mapping in them has a key twice. -/
def areEntriesWellFormed : List (Value × Value) → Bool
  | [] => true
  | (k, v) :: es => k.isWellFormed && v.isWellFormed && !es.any (fun e => k.same e.1)
    && areEntriesWellFormed es

end

theorem areItemsWellFormed_iff {xs : List Value} :
    areItemsWellFormed xs = true ↔ ∀ x ∈ xs, x.isWellFormed = true := by
  induction xs with
  | nil => simp [areItemsWellFormed]
  | cons x xs ih => simp [areItemsWellFormed, ih]

theorem areEntriesWellFormed_iff {es : List (Value × Value)} :
    areEntriesWellFormed es = true ↔
      (∀ e ∈ es, e.1.isWellFormed = true ∧ e.2.isWellFormed = true) ∧
        es.Pairwise fun e f => e.1.same f.1 = false := by
  induction es with
  | nil => simp [areEntriesWellFormed]
  | cons e es ih =>
    simp only [areEntriesWellFormed, Bool.and_eq_true, Bool.not_eq_true', List.any_eq_false, ih,
      List.mem_cons, forall_eq_or_imp, List.pairwise_cons, Bool.not_eq_true]
    tauto

/-! ### Symmetry -/

/-- If the items of a list all have partners in a list that is not longer, and no two have the same
one, then every item of that list is a partner. -/
theorem exists_partner {α β : Type} {r : α → β → Prop} {xs : List α} {ys : List β}
    (hlength : ys.length ≤ xs.length) (h : ∀ x ∈ xs, ∃ y ∈ ys, r x y)
    (hdistinct : xs.Pairwise fun a b => ∀ y ∈ ys, r a y → ¬r b y) :
    ∀ y ∈ ys, ∃ x ∈ xs, r x y := by
  induction xs generalizing ys with
  | nil =>
    intro y hy
    rw [List.length_nil, Nat.le_zero, List.length_eq_zero_iff] at hlength
    rw [hlength] at hy
    cases hy
  | cons x xs ih =>
    obtain ⟨y₀, hy₀, hxy₀⟩ := h x (List.mem_cons_self ..)
    obtain ⟨before, after, rfl⟩ := List.append_of_mem hy₀
    rw [List.pairwise_cons] at hdistinct
    have hsub : ∀ y, y ∈ before ++ after → y ∈ before ++ y₀ :: after := by
      intro y hy
      rcases List.mem_append.mp hy with hy | hy
      · exact List.mem_append_left _ hy
      · exact List.mem_append_right _ (List.mem_cons_of_mem _ hy)
    -- Without the partner of the first item, the others still have theirs.
    have hrest : ∀ y ∈ before ++ after, ∃ x' ∈ xs, r x' y := by
      refine ih ?_ (fun x' hx' => ?_) (hdistinct.2.imp fun hab y hy => hab y (hsub y hy))
      · simp only [List.length_append, List.length_cons] at hlength ⊢
        omega
      · obtain ⟨y, hy, hxy⟩ := h x' (List.mem_cons_of_mem _ hx')
        have hne : y ≠ y₀ := by
          rintro rfl
          exact hdistinct.1 x' hx' y hy hxy₀ hxy
        simp only [List.mem_append, List.mem_cons, hne, false_or] at hy ⊢
        exact ⟨y, hy, hxy⟩
    intro y hy
    by_cases hy' : y ∈ before ++ after
    · obtain ⟨x', hx', hxy⟩ := hrest y hy'
      exact ⟨x', List.mem_cons_of_mem _ hx', hxy⟩
    · have : y = y₀ := by
        simp only [List.mem_append, List.mem_cons, not_or] at hy hy'
        tauto
      exact ⟨x, List.mem_cons_self .., this ▸ hxy₀⟩

mutual

theorem same_symm : ∀ {u v : Value}, u.isWellFormed = true → v.isWellFormed = true →
    u.same v = true → v.same u = true
  | u, v, hu, hv, h => by
    cases u <;> cases v <;> simp only [same, Bool.false_eq_true] at h ⊢
    · simp_all
    · simp_all
    · exact Binary64.same_symm h
    · simp_all
    · exact sameItems_symm hu hv h
    · rename_i xs ys
      rw [Bool.and_eq_true, beq_iff_eq] at h ⊢
      refine ⟨h.1.symm, ?_⟩
      simp only [isWellFormed] at hu hv
      have hflip := same_symm_of_mem hu
      rw [areEntriesWellFormed_iff] at hu hv
      rw [sameEntries_iff] at h ⊢
      intro f hf
      obtain ⟨e, he, hkey, hvalue⟩ := exists_partner (Nat.le_of_eq h.1.symm) h.2
        (hu.2.imp_of_mem fun {e e'} _ he' hne f hf hef he'f => by
          have := same_trans hef.1 ((hflip e' he' f (hv.1 f hf).1 (hv.1 f hf).2).1 he'f.1)
          rw [hne] at this
          cases this) f hf
      have hback := hflip e he f (hv.1 f hf).1 (hv.1 f hf).2
      exact ⟨e, he, hback.1 hkey, hback.2 hvalue⟩
    · rw [Bool.and_eq_true, beq_iff_eq] at h ⊢
      exact ⟨h.1.symm, same_symm hu hv h.2⟩

theorem sameItems_symm : ∀ {xs ys : List Value}, areItemsWellFormed xs = true →
    areItemsWellFormed ys = true → sameItems xs ys = true → sameItems ys xs = true
  | [], [], _, _, _ => rfl
  | [], y :: ys, _, _, h => by simp [sameItems] at h
  | x :: xs, [], _, _, h => by simp [sameItems] at h
  | x :: xs, y :: ys, hx, hy, h => by
    simp only [sameItems, areItemsWellFormed, Bool.and_eq_true] at hx hy h ⊢
    exact ⟨same_symm hx.1 hy.1 h.1, sameItems_symm hx.2 hy.2 h.2⟩

theorem same_symm_of_mem : ∀ {xs : List (Value × Value)}, areEntriesWellFormed xs = true →
    ∀ e ∈ xs, ∀ f : Value × Value, f.1.isWellFormed = true → f.2.isWellFormed = true →
      (e.1.same f.1 = true → f.1.same e.1 = true) ∧ (e.2.same f.2 = true → f.2.same e.2 = true)
  | [], _, _, he, _, _, _ => by cases he
  | (k, v) :: xs, hxs, e, he, f, hf, hf' => by
    simp only [areEntriesWellFormed, Bool.and_eq_true] at hxs
    rcases List.mem_cons.mp he with rfl | he
    · exact ⟨same_symm hxs.1.1.1 hf, same_symm hxs.1.1.2 hf'⟩
    · exact same_symm_of_mem hxs.2 e he f hf hf'

end

end Value

namespace Mapping

variable {m n : Mapping} {name : String} {v w : Value}

/-! ### Mappings -/

/-- No mapping in the mapping, itself included, has a key twice. -/
def isWellFormed (m : Mapping) : Bool := m.toValue.isWellFormed

/-- The mappings in which no mapping has a key twice. -/
abbrev WellFormed (m : Mapping) : Prop := m.isWellFormed = true

theorem isWellFormed_iff : m.isWellFormed = true ↔
    (∀ e ∈ m.entries, e.1.isWellFormed = true ∧ e.2.isWellFormed = true) ∧
      m.entries.Pairwise fun e f => e.1.same f.1 = false :=
  Value.areEntriesWellFormed_iff

theorem same_symm (hm : m.isWellFormed = true) (hn : n.isWellFormed = true)
    (h : m.same n = true) : n.same m = true :=
  Value.same_symm hm hn h

theorem mem_of_getName? (h : m.getName? name = some v) : (.string name, v) ∈ m.entries := by
  rw [getName?, get?, Option.map_eq_some_iff] at h
  obtain ⟨e, hfind, rfl⟩ := h
  have hkey : e.1.same (.string name) = true := List.find?_some (p := fun e : Value × Value => e.1.same (.string name)) hfind
  rw [← same_string_iff.mp hkey]
  exact List.mem_of_find?_eq_some hfind

theorem find?_of_mem {es : List (Value × Value)}
    (hdistinct : es.Pairwise fun e f => e.1.same f.1 = false) (h : (.string name, v) ∈ es) :
    es.find? (fun e => e.1.same (.string name)) = some (.string name, v) := by
  induction es with
  | nil => cases h
  | cons e es ih =>
    rw [List.pairwise_cons] at hdistinct
    rcases List.mem_cons.mp h with rfl | h
    · simp [Value.same_refl]
    · rw [List.find?_cons, hdistinct.1 _ h]
      exact ih hdistinct.2 h

/-- In a well-formed mapping every entry is found under its key. -/
theorem getName?_of_mem (hm : m.isWellFormed = true) (h : (.string name, v) ∈ m.entries) :
    m.getName? name = some v := by
  rw [getName?, get?, find?_of_mem (isWellFormed_iff.mp hm).2 h]
  rfl

theorem isWellFormed_of_getName? (hm : m.isWellFormed = true) (h : m.getName? name = some v) :
    v.isWellFormed = true :=
  ((isWellFormed_iff.mp hm).1 _ (mem_of_getName? h)).2

/-- What a mapping has under a name, a mapping equal to it has as well, if that is well-formed. -/
theorem exists_getName?_of_same (hn : n.isWellFormed = true) (h : m.same n = true)
    (hv : m.getName? name = some v) : ∃ w, n.getName? name = some w ∧ v.same w = true := by
  rw [same, toValue, toValue, Value.same, Bool.and_eq_true] at h
  obtain ⟨⟨k, w⟩, hmem, hkey, hvw⟩ := Value.sameEntries_iff.mp h.2 _ (mem_of_getName? hv)
  cases k <;> simp only [Value.same, Bool.false_eq_true, beq_iff_eq] at hkey
  subst hkey
  exact ⟨w, getName?_of_mem hn hmem, hvw⟩

end Mapping

namespace Value

/-! ### Equal values seen through the accessors -/

theorem untagged_same : ∀ {v w : Value}, v.same w = true → v.untagged.same w.untagged = true
  | .tagged _ v, .tagged _ w, h => by
    rw [same, Bool.and_eq_true] at h
    exact untagged_same (v := v) (w := w) h.2
  | .null, .null, _ => rfl
  | .bool _, .bool _, h => h
  | .int _, .int _, h => h
  | .float _, .float _, h => h
  | .string _, .string _, h => h
  | .seq _, .seq _, h => h
  | .map _, .map _, h => h

theorem asString?_same {v w : Value} (h : v.same w = true) : v.asString? = w.asString? := by
  have := untagged_same h
  revert this
  rw [asString?, asString?]
  cases v.untagged <;> cases w.untagged <;> simp [same]

theorem isMapping_same {v w : Value} (h : v.same w = true) : v.isMapping = w.isMapping := by
  have := untagged_same h
  revert this
  rw [isMapping, isMapping, asMapping?, asMapping?]
  cases v.untagged <;> cases w.untagged <;> simp [same]

theorem exists_asMapping?_of_same {v w : Value} {m : Mapping} (h : v.same w = true)
    (hm : v.asMapping? = some m) : ∃ n, w.asMapping? = some n ∧ m.same n = true := by
  have := untagged_same h
  revert this hm
  rw [asMapping?, asMapping?]
  cases v.untagged <;> cases w.untagged <;> simp [same, Mapping.same, Mapping.toValue]
  rintro rfl hlength hentries
  exact ⟨hlength, hentries⟩

theorem isWellFormed_untagged : ∀ {v : Value}, v.isWellFormed = true →
    v.untagged.isWellFormed = true
  | .tagged _ v, h => isWellFormed_untagged (v := v) h
  | .null, _ => rfl
  | .bool _, _ => rfl
  | .int _, _ => rfl
  | .float _, _ => rfl
  | .string _, _ => rfl
  | .seq _, h => h
  | .map _, h => h

theorem isWellFormed_of_asMapping? {v : Value} {m : Mapping} (hv : v.isWellFormed = true)
    (hm : v.asMapping? = some m) : m.isWellFormed = true := by
  have := isWellFormed_untagged hv
  rw [asMapping?] at hm
  split at hm
  · rename_i entries heq
    cases hm
    rwa [heq] at this
  · cases hm

end Value

end Cookbook
