import Cookbook.EntityType
import Mathlib.Data.List.Infix

/-!
# Types that own the same name

The stems of all types that own a name are starts of it, each followed by a dot. So of two of them
the shorter stem is a start of the longer one, and the longer one goes on with that dot. The types
that own a name can thus be told apart by the length of their stems, but for those that have the same
stem; and of these the same one counts for every name.

## Main definitions

* `EntityType.Covers`: the stem of a type goes on from that of another after a dot.

## Main results

* `EntityType.owns_iff`: the names that a type owns.
* `EntityTypes.exists_of_longest`: the type that counts among others.
* `EntityTypes.eq_of_stem_eq`: of types with the same stem one counts for all names.
* `EntityTypes.exists_owner_of_owns`: what counts for a name if a type owns it that counts for another.
-/

namespace Cookbook

namespace EntityType

variable {t u : EntityType} {name : String}

/-- A type owns the names that are its stem, a dot and something more. -/
theorem owns_iff :
    t.owns name = true ↔ ∃ c rest, name.toList = t.stem.toList ++ '.' :: c :: rest := by
  rw [owns, entityId?, Text.stripStart?]
  cases h : Text.dropStart? t.stem.toList name.toList with
  | none =>
    simp only [Option.map_none, Option.isSome_none, Bool.false_eq_true, false_iff]
    rintro ⟨c, rest, hname⟩
    rw [Text.dropStart?_eq_some_iff.mpr hname] at h
    cases h
  | some after =>
    have hname := Text.dropStart?_eq_some_iff.mp h
    rw [hname]
    simp only [Option.map_some, String.toList_ofList, List.append_cancel_left_eq]
    match after with
    | [] => simp
    | [c] => by_cases hc : c = '.' <;> simp [hc]
    | c :: c' :: rest => by_cases hc : c = '.' <;> simp [hc]

/-- The stem of a type goes on from that of another after a dot. -/
def Covers (t u : EntityType) : Prop := Text.hasStart (t.stem ++ ".") u.stem = true

instance (t u : EntityType) : Decidable (t.Covers u) := inferInstanceAs (Decidable (_ = true))

/-- Of two types that own a name, one has the stem of the other or is covered by it, unless its own
stem is shorter. -/
theorem stem_eq_or_covers (ht : t.owns name = true) (hu : u.owns name = true)
    (hsize : t.stem.utf8ByteSize ≤ u.stem.utf8ByteSize) : u.stem = t.stem ∨ t.Covers u := by
  obtain ⟨c, rest, ht⟩ := owns_iff.mp ht
  obtain ⟨c', rest', hu⟩ := owns_iff.mp hu
  have htstart : t.stem.toList <+: name.toList := ⟨_, ht.symm⟩
  have hustart : u.stem.toList <+: name.toList := ⟨_, hu.symm⟩
  rcases List.prefix_or_prefix_of_prefix htstart hustart with ⟨more, hmore⟩ | ⟨more, hmore⟩
  · cases more with
    | nil => exact .inl (String.toList_inj.mp (by rw [← hmore, List.append_nil]))
    | cons x more =>
      -- The name goes on from the shorter stem with a dot, and so does the longer stem.
      rw [← hmore, ht, List.append_assoc, List.append_cancel_left_eq, List.cons_append,
        List.cons.injEq] at hu
      refine .inr (Option.isSome_iff_exists.mpr ⟨more, Text.dropStart?_eq_some_iff.mpr ?_⟩)
      rw [← hmore, ← hu.1, String.toList_append, List.append_assoc]
      rfl
  · have hstem : t.stem = u.stem ++ String.ofList more := by
      rw [← String.toList_inj, String.toList_append, String.toList_ofList, hmore]
    have hnone : (String.ofList more).utf8ByteSize = 0 := by
      rw [hstem, String.utf8ByteSize_append] at hsize
      omega
    rw [String.utf8ByteSize_eq_zero_iff] at hnone
    exact .inl (by rw [hstem, hnone, String.append_empty])

end EntityType

namespace EntityTypes

variable {ts : EntityTypes} {l : List EntityType} {t u : EntityType} {name other : String}

theorem longest_concat (l : List EntityType) (t : EntityType) :
    longest (l ++ [t]) = match longest l with
      | some b => if t.stem.utf8ByteSize < b.stem.utf8ByteSize then some b else some t
      | none => some t := by
  rw [longest, List.foldl_append]
  rfl

theorem exists_longest (h : t ∈ l) : ∃ u, longest l = some u := by
  cases l using List.reverseRecOn with
  | nil => cases h
  | append_singleton l x =>
    rw [longest_concat]
    split
    · split <;> exact ⟨_, rfl⟩
    · exact ⟨_, rfl⟩

/-- The type that counts has the longest stem, and it is the last one that has. -/
theorem exists_of_longest (h : longest l = some t) : ∃ before after, l = before ++ t :: after ∧
    (∀ x ∈ before, x.stem.utf8ByteSize ≤ t.stem.utf8ByteSize) ∧
    ∀ x ∈ after, x.stem.utf8ByteSize < t.stem.utf8ByteSize := by
  induction l using List.reverseRecOn generalizing t with
  | nil => cases h
  | append_singleton l u ih =>
    rw [longest_concat] at h
    cases hl : longest l with
    | none =>
      rw [hl] at h
      cases h
      have hnil : l = [] := by
        refine List.eq_nil_iff_forall_not_mem.mpr fun x hx => ?_
        obtain ⟨b, hb⟩ := exists_longest hx
        rw [hl] at hb
        cases hb
      exact ⟨[], [], by rw [hnil], by simp, by simp⟩
    | some b =>
      obtain ⟨before, after, rfl, hbefore, hafter⟩ := ih hl
      rw [hl] at h
      dsimp only at h
      split at h
      · rename_i hlt
        cases h
        refine ⟨before, after ++ [u], by simp, hbefore, ?_⟩
        simpa [or_imp, forall_and] using ⟨hafter, hlt⟩
      · rename_i hge
        cases h
        refine ⟨before ++ b :: after, [], by simp, fun x hx => ?_, by simp⟩
        rcases List.mem_append.mp hx with hx | hx
        · have := hbefore x hx
          omega
        rcases List.mem_cons.mp hx with rfl | hx
        · omega
        · have := hafter x hx
          omega

/-! ### The type that counts for a name -/

theorem mem_of_ownerOf? (h : ts.ownerOf? name = some t) :
    t ∈ ts.values ∧ t.owns name = true := by
  obtain ⟨before, after, hl, -⟩ := exists_of_longest h
  exact List.mem_filter.mp (hl ▸ List.mem_append_right _ List.mem_cons_self)

theorem ownerOf?_eq_none_iff :
    ts.ownerOf? name = none ↔ ∀ t ∈ ts.values, t.owns name = false := by
  constructor
  · intro h t ht
    rw [← Bool.not_eq_true]
    intro howns
    have hmem : t ∈ ts.values.filter (·.owns name) := List.mem_filter.mpr ⟨ht, howns⟩
    obtain ⟨u, hu⟩ := exists_longest hmem
    rw [ownerOf?, hu] at h
    cases h
  · intro h
    rw [Option.eq_none_iff_forall_ne_some]
    intro t ht
    obtain ⟨hmem, howns⟩ := mem_of_ownerOf? ht
    rw [h t hmem] at howns
    cases howns

theorem size_le_of_ownerOf? (h : ts.ownerOf? name = some t) (hu : u ∈ ts.values)
    (howns : u.owns name = true) : u.stem.utf8ByteSize ≤ t.stem.utf8ByteSize := by
  obtain ⟨before, after, hl, hbefore, hafter⟩ := exists_of_longest h
  have hmem : u ∈ before ++ t :: after := hl ▸ List.mem_filter.mpr ⟨hu, howns⟩
  rcases List.mem_append.mp hmem with hmem | hmem
  · exact hbefore u hmem
  rcases List.mem_cons.mp hmem with rfl | hmem
  · exact Nat.le_refl _
  · exact (hafter u hmem).le

/-- The type that counts for a name is the last of all types that have its stem. -/
theorem getLast?_of_ownerOf? (h : ts.ownerOf? name = some t) :
    (ts.values.filter (·.stem = t.stem)).getLast? = some t := by
  obtain ⟨before, after, hl, -, hafter⟩ := exists_of_longest h
  have howns : (ts.values.filter (·.owns name)).filter (·.stem = t.stem)
      = ts.values.filter (·.stem = t.stem) := by
    rw [List.filter_filter]
    refine List.filter_congr fun u _ => ?_
    by_cases hstem : u.stem = t.stem
    · have hname := EntityType.owns_iff.mp (mem_of_ownerOf? h).2
      simp [hstem, EntityType.owns_iff.mpr (hstem ▸ hname)]
    · simp [hstem]
  have hnone : after.filter (·.stem = t.stem) = [] := by
    refine List.filter_eq_nil_iff.mpr fun u hu hstem => ?_
    have hlt := hafter u hu
    rw [of_decide_eq_true hstem] at hlt
    exact Nat.lt_irrefl _ hlt
  rw [← howns, hl, List.filter_append, List.filter_cons_of_pos (by simp), hnone,
    List.getLast?_append_cons, List.getLast?_singleton]

/-- Of types with the same stem, the same one counts for all names. -/
theorem eq_of_stem_eq (ht : ts.ownerOf? name = some t) (hu : ts.ownerOf? other = some u)
    (h : u.stem = t.stem) : u = t := by
  have hlast := getLast?_of_ownerOf? hu
  rw [h, getLast?_of_ownerOf? ht] at hlast
  exact (Option.some.inj hlast).symm

/-- A name that is owned by the type that counts for another one: that type counts for it as well, or
one that it covers. -/
theorem exists_owner_of_owns (ht : ts.ownerOf? other = some t) (howns : t.owns name = true) :
    ∃ owner, ts.ownerOf? name = some owner ∧ (owner = t ∨ t.Covers owner) := by
  have hmem : t ∈ ts.values.filter (·.owns name) :=
    List.mem_filter.mpr ⟨(mem_of_ownerOf? ht).1, howns⟩
  obtain ⟨owner, howner⟩ := exists_longest hmem
  have hsize := size_le_of_ownerOf? howner (mem_of_ownerOf? ht).1 howns
  refine ⟨owner, howner, ?_⟩
  refine (EntityType.stem_eq_or_covers howns (mem_of_ownerOf? howner).2 hsize).imp_left ?_
  exact eq_of_stem_eq ht howner

end EntityTypes

end Cookbook
