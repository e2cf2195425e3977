import Cookbook.Proofs.Value.Building

/-!
# Putting values under names, up to the order of entries

A value under a new name goes to the end, and one under a name that is there takes the place of the
old one. So values that are put under different names in another order give mappings that differ in
the order of their entries, if in anything. Equality of mappings does not see that order, and it is
kept when equal values are put under the same name.

The entries afterwards can be told from those before only if no key comes twice: of two entries with
one key the first is replaced and the second stays.

## Main results

* `Mapping.get?_insertName_of_ne`: other keys, which may be any values, keep what they have.
* `Mapping.insertName_insertName`: of two values under one name the later stays.
* `Mapping.insertName_comm`: two values under different names, in either order.
* `Mapping.same_insertName`: equal values put into equal mappings.
* `Mapping.rel_getName?`: what equal mappings have under a name.
-/

namespace Cookbook

namespace Mapping

variable {m n : Mapping} {name other : String} {k v w : Value}

/-- Other keys keep what they have. -/
theorem get?_insertName_of_ne (hk : k ≠ .string name) :
    (m.insertName name v).get? k = m.get? k := by
  have hname : (Value.string name).same k = false := by
    cases k with
    | string s => exact beq_eq_false_iff_ne.mpr fun h => hk (congrArg Value.string h.symm)
    | _ => rfl
  obtain ⟨es⟩ := m
  simp only [insertName, insert, get?]
  induction es with
  | nil => rw [insertEntry, List.find?_cons, hname]
  | cons e es ih =>
    rw [insertEntry]
    split
    · rename_i he
      rw [List.find?_cons, List.find?_cons, same_string_iff.mp he, hname]
    · rw [List.find?_cons, List.find?_cons]
      cases e.1.same k with
      | true => rfl
      | false => exact ih

/-- Of two values under one name the later stays. -/
theorem insertName_insertName (m : Mapping) (name : String) (v w : Value) :
    (m.insertName name v).insertName name w = m.insertName name w := by
  obtain ⟨es⟩ := m
  simp only [insertName, insert]
  congr 1
  induction es with
  | nil => simp [insertEntry, Value.same]
  | cons e es ih =>
    rw [insertEntry, insertEntry]
    split
    · rename_i he
      rw [insertEntry, if_pos he]
    · rename_i he
      rw [insertEntry, if_neg he, ih]

/-! ### Entries -/

/-- Equal mappings have as many entries, and each entry has an equal one. -/
theorem same_iff : m.same n = true ↔ m.size = n.size ∧
    ∀ e ∈ m.entries, ∃ f ∈ n.entries, e.1.same f.1 = true ∧ e.2.same f.2 = true := by
  rw [same, toValue, toValue, Value.same, Bool.and_eq_true, beq_iff_eq, Value.sameEntries_iff]
  rfl

theorem mem_insertEntry_iff {es : List (Value × Value)}
    (hdistinct : es.Pairwise fun e f => e.1.same f.1 = false) {e : Value × Value} :
    e ∈ insertEntry (.string name) v es ↔ e = (.string name, v) ∨ e ∈ es ∧ e.1 ≠ .string name := by
  induction es with
  | nil => simp [insertEntry]
  | cons f es ih =>
    rw [List.pairwise_cons] at hdistinct
    rw [insertEntry]
    split
    · rename_i hf
      have hkey : f.1 = .string name := same_string_iff.mp hf
      -- No later entry has the key.
      have hlater : e ∈ es → e.1 ≠ .string name := by
        intro he heq
        have hsame := hdistinct.1 e he
        rw [hkey, heq, Value.same_refl] at hsame
        cases hsame
      rw [List.mem_cons, List.mem_cons, hkey]
      constructor
      · rintro (rfl | he)
        · exact .inl rfl
        · exact .inr ⟨.inr he, hlater he⟩
      · rintro (rfl | ⟨rfl | he, hne⟩)
        · exact .inl rfl
        · exact absurd hkey hne
        · exact .inr he
    · rename_i hf
      rw [List.mem_cons, List.mem_cons, ih hdistinct.2]
      constructor
      · rintro (rfl | rfl | ⟨he, hne⟩)
        · exact .inr ⟨.inl rfl, fun heq => hf (same_string_iff.mpr heq)⟩
        · exact .inl rfl
        · exact .inr ⟨.inr he, hne⟩
      · rintro (rfl | ⟨rfl | he, hne⟩)
        · exact .inr (.inl rfl)
        · exact .inl rfl
        · exact .inr (.inr ⟨he, hne⟩)

/-- The entries afterwards are the new one and those under other keys. -/
theorem mem_insertName_iff (hm : m.isWellFormed = true) {e : Value × Value} :
    e ∈ (m.insertName name v).entries ↔
      e = (.string name, v) ∨ e ∈ m.entries ∧ e.1 ≠ .string name :=
  mem_insertEntry_iff (isWellFormed_iff.mp hm).2

theorem size_insertName (m : Mapping) (name : String) (v : Value) :
    (m.insertName name v).size = if m.containsName name then m.size else m.size + 1 := by
  obtain ⟨es⟩ := m
  simp only [insertName, insert, containsName, getName?, get?, size, Option.isSome_map]
  induction es with
  | nil => rfl
  | cons e es ih =>
    rw [insertEntry, List.find?_cons]
    cases he : e.1.same (.string name) with
    | true => simp
    | false =>
      simp only [Bool.false_eq_true, if_false, List.length_cons, ih]
      split <;> rfl

theorem containsName_insertName (m : Mapping) (name : String) (v : Value) (other : String) :
    (m.insertName name v).containsName other = (name == other || m.containsName other) := by
  rw [containsName, containsName]
  by_cases h : name = other
  · subst h
    simp
  · rw [getName?_insertName_of_ne _ _ (Ne.symm h), beq_false_of_ne h, Bool.false_or]

/-! ### Equal mappings -/

/-- Under a name, equal mappings have equal values, or both nothing. -/
theorem rel_getName? (hm : m.isWellFormed = true) (hn : n.isWellFormed = true)
    (h : m.same n = true) (name : String) :
    Option.Rel (fun a b => a.same b = true) (m.getName? name) (n.getName? name) := by
  cases ha : m.getName? name with
  | some a =>
    obtain ⟨b, hb, hab⟩ := exists_getName?_of_same hn h ha
    rw [hb]
    exact .some hab
  | none =>
    cases hb : n.getName? name with
    | none => exact .none
    | some b =>
      obtain ⟨a, ha', -⟩ := exists_getName?_of_same hm (same_symm hm hn h) hb
      rw [ha] at ha'
      cases ha'

theorem containsName_same (hm : m.isWellFormed = true) (hn : n.isWellFormed = true)
    (h : m.same n = true) (name : String) : m.containsName name = n.containsName name := by
  have hrel := rel_getName? hm hn h name
  rw [containsName, containsName]
  cases ha : m.getName? name <;> cases hb : n.getName? name <;> simp_all

/-- Equal values put under a name of equal mappings. -/
theorem same_insertName (hm : m.isWellFormed = true) (hn : n.isWellFormed = true)
    (h : m.same n = true) (hvw : v.same w = true) :
    (m.insertName name v).same (n.insertName name w) = true := by
  obtain ⟨hsize, hentries⟩ := same_iff.mp h
  refine same_iff.mpr ⟨?_, fun e he => ?_⟩
  · rw [size_insertName, size_insertName, containsName_same hm hn h, hsize]
  · rcases (mem_insertName_iff hm).mp he with rfl | ⟨he, hne⟩
    · exact ⟨_, (mem_insertName_iff hn).mpr (.inl rfl), Value.same_refl _, hvw⟩
    · obtain ⟨f, hf, hkey, hvalue⟩ := hentries e he
      refine ⟨f, (mem_insertName_iff hn).mpr (.inr ⟨hf, fun heq => hne ?_⟩), hkey, hvalue⟩
      exact same_string_iff.mp (heq ▸ hkey)

/-- Two values under different names, in either order. -/
theorem insertName_comm (hm : m.isWellFormed = true) (hv : v.isWellFormed = true)
    (hw : w.isWellFormed = true) (hne : name ≠ other) :
    ((m.insertName name v).insertName other w).same ((m.insertName other w).insertName name v)
      = true := by
  have hleft : (m.insertName name v).isWellFormed = true := isWellFormed_insertName hm hv
  have hright : (m.insertName other w).isWellFormed = true := isWellFormed_insertName hm hw
  refine same_iff.mpr ⟨?_, fun e he => ⟨e, ?_, Value.same_refl _, Value.same_refl _⟩⟩
  · simp only [size_insertName, containsName_insertName, beq_false_of_ne hne,
      beq_false_of_ne (Ne.symm hne), Bool.false_or]
    split <;> split <;> rfl
  · have hkeys : Value.string name ≠ .string other := fun h => hne (Value.string.inj h)
    rw [mem_insertName_iff hleft, mem_insertName_iff hm] at he
    rw [mem_insertName_iff hright, mem_insertName_iff hm]
    rcases he with rfl | ⟨rfl | ⟨he, hname⟩, hother⟩
    · exact .inr ⟨.inl rfl, hkeys.symm⟩
    · exact .inl rfl
    · exact .inr ⟨.inr ⟨he, hother⟩, hname⟩

end Mapping

end Cookbook
