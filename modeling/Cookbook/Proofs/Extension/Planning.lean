import Cookbook.Proofs.Extension.Installing
import Cookbook.Proofs.Postorder.Reaching

/-!
# Which extensions an installation plans

An installation goes from the names it is given through what they require, and stops at extensions
that are installed. Everything that is reached in this way has to be in the catalog or installed;
then just what is reached and not installed is planned. Otherwise nothing is, and some reached name
is reported as unknown.

That what is behind an installed extension is installed too is taken on trust here.

## Main definitions

* `Catalog.Reaches`: what names lead to through extensions that are not installed.

## Main results

* `Catalog.of_installOrder`: what is planned.
* `Catalog.of_installOrder_eq_error`: why nothing is.
-/

namespace Cookbook

namespace Catalog

open Relation (ReflTransGen)

variable {catalog : Catalog} {installed names required : List String} {order : List Extension}
  {a b name : String} {e : Error}

/-- Names lead to another one through extensions that are not installed. -/
def Reaches (catalog : Catalog) (installed names : List String) (name : String) : Prop :=
  ∃ start ∈ names, ReflTransGen (fun a b => a ∉ installed ∧ catalog.Needs a b) start name

theorem Reaches.of_mem (h : name ∈ names) : catalog.Reaches installed names name :=
  ⟨name, h, .refl⟩

/-- What an extension requires is reached with it, unless the extension is installed. -/
theorem Reaches.tail (h : catalog.Reaches installed names a) (ha : a ∉ installed)
    (hneeds : catalog.Needs a b) : catalog.Reaches installed names b := by
  obtain ⟨start, hstart, hreach⟩ := h
  exact ⟨start, hstart, hreach.tail ⟨ha, hneeds⟩⟩

/-! ### What is asked of a name -/

theorem requires_eq_none_iff : catalog.requires installed name = .ok none ↔ name ∈ installed := by
  rw [requires]
  split
  · rename_i hin
    simpa using hin
  · rename_i hout
    have hout : name ∉ installed := by simpa using hout
    split <;> simp [hout]

theorem requires_eq_some_iff : catalog.requires installed name = .ok (some required) ↔
    name ∉ installed ∧ ∃ x, catalog.get? name = some x ∧ x.requirements = required := by
  rw [requires]
  split
  · rename_i hin
    have hin : name ∈ installed := by simpa using hin
    simp [hin]
  · rename_i hout
    have hout : name ∉ installed := by simpa using hout
    split
    · rename_i x hx
      simp [hout, hx]
    · rename_i hx
      simp [hx]

theorem requires_eq_error_iff : catalog.requires installed name = .error e ↔
    name ∉ installed ∧ catalog.contains name = false ∧ e = .unknownExtension name := by
  rw [requires, NameMap.contains]
  split
  · rename_i hin
    have hin : name ∈ installed := by simpa using hin
    simp [hin]
  · rename_i hout
    have hout : name ∉ installed := by simpa using hout
    split
    · rename_i x hx
      simp [hx]
    · rename_i hx
      simp [hout, hx, eq_comm]

theorem needs_requires_iff :
    Postorder.Needs (catalog.requires installed) a b ↔ a ∉ installed ∧ catalog.Needs a b := by
  simp only [Postorder.Needs, requires_eq_some_iff, Needs]
  constructor
  · rintro ⟨required, ⟨ha, x, hx, rfl⟩, hb⟩
    exact ⟨ha, x, hx, hb⟩
  · rintro ⟨ha, x, hx, hb⟩
    exact ⟨x.requirements, ⟨ha, x, hx, rfl⟩, hb⟩

theorem reaches_iff : catalog.Reaches installed names name ↔
    ∃ start ∈ names, ReflTransGen (Postorder.Needs (catalog.requires installed)) start name := by
  have hsame : Postorder.Needs (catalog.requires installed)
      = fun a b => a ∉ installed ∧ catalog.Needs a b :=
    funext fun a => funext fun b => propext needs_requires_iff
  rw [Reaches, hsame]

/-- Only extensions of the catalog have requirements, so their number bounds every way. -/
theorem mem_names_of_requires (catalog : Catalog) (name : String)
    (h : ∃ required, catalog.requires installed name = .ok (some required)) :
    name ∈ catalog.names := by
  obtain ⟨required, h⟩ := h
  obtain ⟨-, x, hx, -⟩ := requires_eq_some_iff.mp h
  rw [NameMap.mem_names_iff, hx]
  rfl

theorem length_names_lt (catalog : Catalog) : catalog.names.length < catalog.size + 1 := by
  simp [NameMap.names, NameMap.size]

/-! ### The plan -/

theorem exists_of_installOrder (h : catalog.installOrder installed names = .ok order) :
    ∃ found, catalog.withRequirements installed names = .ok found ∧
      ∀ x, x ∈ order ↔ ∃ name ∈ found, catalog.get? name = some x := by
  obtain ⟨found, hfound, h⟩ := Except.bind_eq_ok_iff.mp h
  cases h
  refine ⟨found, hfound, fun x => ?_⟩
  have hkind : x.kind = .module ∨ x.kind = .theme := by
    cases x.kind
    · exact .inl rfl
    · exact .inr rfl
  simp only [List.mem_append, List.mem_filter, decide_eq_true_eq, List.mem_filterMap,
    ← and_or_left, hkind, and_true]

/-- What is planned: all that is reached and not installed. -/
theorem of_installOrder (h : catalog.installOrder installed names = .ok order) :
    (∀ n, catalog.Reaches installed names n → n ∈ installed ∨ catalog.contains n = true) ∧
    ∀ x, x ∈ order ↔
      ∃ n, catalog.Reaches installed names n ∧ n ∉ installed ∧ catalog.get? n = some x := by
  obtain ⟨found, hfound, horder⟩ := exists_of_installOrder h
  have hknown : ∀ n, (∃ required, catalog.requires installed n = .ok (some required)) →
    n ∈ catalog.names := catalog.mem_names_of_requires
  have hfuel := catalog.length_names_lt
  refine ⟨fun n hn => ?_, fun x => ?_⟩
  · obtain ⟨start, hstart, hreach⟩ := reaches_iff.mp hn
    rcases Postorder.seen_of_visitAll hknown hfuel hfound hstart hreach with hnone | hlisted
    · exact .inl (requires_eq_none_iff.mp hnone)
    · obtain ⟨required, hn⟩ := Postorder.needs_of_mem_visitAll hfound hlisted
      obtain ⟨-, x, hx, -⟩ := requires_eq_some_iff.mp hn
      exact .inr (by rw [NameMap.contains, hx]; rfl)
  · have hmem : ∀ n, n ∈ found ↔ catalog.Reaches installed names n ∧
        ∃ required, catalog.requires installed n = .ok (some required) := fun n => by
      rw [reaches_iff, Postorder.mem_of_visitAll_iff hknown hfuel hfound]
    rw [horder]
    refine exists_congr fun n => ?_
    rw [hmem, and_assoc]
    refine and_congr_right fun _ => ?_
    simp only [requires_eq_some_iff]
    constructor
    · rintro ⟨⟨-, hout, -⟩, hx⟩
      exact ⟨hout, hx⟩
    · rintro ⟨hout, hx⟩
      exact ⟨⟨_, hout, x, hx, rfl⟩, hx⟩

/-- Nothing is planned if a name is reached that is not known. -/
theorem of_installOrder_eq_error (h : catalog.installOrder installed names = .error e) :
    ∃ n, catalog.Reaches installed names n ∧ n ∉ installed ∧ catalog.contains n = false ∧
      e = .unknownExtension n := by
  have hvisit : catalog.withRequirements installed names = .error e := by
    rw [installOrder] at h
    cases hfound : catalog.withRequirements installed names with
    | error e' =>
      rw [hfound] at h
      cases h
      rfl
    | ok found =>
      rw [hfound] at h
      cases h
  obtain ⟨start, hstart, n, hreach, hn⟩ := Postorder.exists_of_visitAll_eq_error hvisit
  exact ⟨n, reaches_iff.mpr ⟨start, hstart, hreach⟩, requires_eq_error_iff.mp hn⟩

/-- Nothing is left to do for names that are installed. -/
theorem installOrder_of_subset (h : names ⊆ installed) :
    catalog.installOrder installed names = .ok [] := by
  have hreached : ∀ n, catalog.Reaches installed names n → n ∈ installed := by
    rintro n ⟨start, hstart, hreach⟩
    induction hreach with
    | refl => exact h hstart
    | tail _ hstep ih => exact absurd ih hstep.1
  cases horder : catalog.installOrder installed names with
  | error e =>
    obtain ⟨n, hn, hout, -⟩ := of_installOrder_eq_error horder
    exact absurd (hreached n hn) hout
  | ok order =>
    have hnone : order = [] := by
      refine List.eq_nil_iff_forall_not_mem.mpr fun x hx => ?_
      obtain ⟨n, hn, hout, -⟩ := ((of_installOrder horder).2 x).mp hx
      exact hout (hreached n hn)
    rw [hnone]

end Catalog

end Cookbook
