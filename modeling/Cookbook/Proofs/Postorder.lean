import Cookbook.Postorder
import Cookbook.Proofs.Except

/-!
# What a postorder lists

A list only grows, and it grows by names that have needs of their own. Names that were asked for are
listed, if they have needs: at the top nothing is on the way down yet, so nothing is left out there.

Nothing here depends on how the fuel is chosen, as long as there is some.

## Main definitions

* `Postorder.Grows`: how one list comes after another.

## Main results

* `Postorder.mem_visitAll`, `needs_of_mem_visitAll`: what is listed.
* `Postorder.exists_visitAll`: nothing fails if no name that is met does.
-/

namespace Cookbook

namespace Postorder

universe u

variable {ε : Type u} {needs : String → Except ε (Option (List String))} {fuel : Nat}
  {path order order' order'' names : List String} {name : String}

/-- A list has all names of another, and besides them only names with needs. -/
def Grows (needs : String → Except ε (Option (List String))) (order order' : List String) : Prop :=
  order ⊆ order' ∧ ∀ n ∈ order', n ∈ order ∨ ∃ required, needs n = .ok (some required)

namespace Grows

theorem refl (order : List String) : Grows needs order order :=
  ⟨List.Subset.refl order, fun _ => .inl⟩

theorem trans (h : Grows needs order order') (h' : Grows needs order' order'') :
    Grows needs order order'' := by
  refine ⟨List.Subset.trans h.1 h'.1, fun n hn => ?_⟩
  rcases h'.2 n hn with hn | hn
  · exact h.2 n hn
  · exact .inr hn

end Grows

theorem grows_foldlM
    (hvisit : ∀ order order' name, visit needs fuel path order name = .ok order' →
      Grows needs order order')
    (h : names.foldlM (visit needs fuel path) order = .ok order') : Grows needs order order' :=
  Except.foldlM_invariant (P := Grows needs order)
    (fun _ hb name _ _ hv => hb.trans (hvisit _ _ name hv)) (Grows.refl order) h

/-- Looking at a name lets the list grow. -/
theorem grows_visit (h : visit needs fuel path order name = .ok order') :
    Grows needs order order' := by
  induction fuel generalizing path order order' name with
  | zero =>
    cases h
    exact Grows.refl order
  | succ fuel ih =>
    rw [visit] at h
    split at h
    · cases h
      exact Grows.refl order
    · split at h
      · cases h
      · cases h
        exact Grows.refl order
      · rename_i required hneeds
        split at h
        · cases h
        · rename_i below hbelow
          cases h
          have hgrows := grows_foldlM (fun _ _ _ => ih) hbelow
          refine ⟨List.Subset.trans hgrows.1 (List.subset_append_left ..), fun n hn => ?_⟩
          rcases List.mem_append.mp hn with hn | hn
          · exact hgrows.2 n hn
          · rw [List.mem_singleton] at hn
            exact .inr ⟨required, hn ▸ hneeds⟩

/-- A name without needs is left out. -/
theorem visit_of_none (h : needs name = .ok none) : visit needs fuel path order name = .ok order := by
  cases fuel with
  | zero => rfl
  | succ fuel =>
    rw [visit, h]
    split <;> rfl

/-- A name that needs only names without needs is listed alone. -/
theorem visitAll_singleton {required : List String} (h : needs name = .ok (some required))
    (hall : ∀ n ∈ required, needs n = .ok none) : visitAll needs (fuel + 1) [name] = .ok [name] := by
  have hstep : ∀ order, order = [] → ∀ n ∈ required,
      ∃ order', visit needs fuel [name] order n = .ok order' ∧ order' = [] := by
    rintro order rfl n hn
    exact ⟨[], visit_of_none (hall n hn), rfl⟩
  obtain ⟨order, hnone, rfl⟩ := Except.exists_foldlM_eq_ok hstep rfl
  rw [visitAll, List.foldlM_cons, visit, h]
  simp [hnone]

/-- A name that is looked at is listed if it has needs and is not on the way down. -/
theorem mem_visit {required : List String} (h : visit needs (fuel + 1) path order name = .ok order')
    (hneeds : needs name = .ok (some required)) (hpath : name ∉ path) : name ∈ order' := by
  rw [visit, hneeds] at h
  split at h
  · rename_i hlisted
    cases h
    simpa [hpath] using hlisted
  · dsimp only at h
    split at h
    · cases h
    · cases h
      exact List.mem_append_right _ (List.mem_singleton_self name)

/-- The names listed among those that were asked for are those with needs. -/
theorem mem_visitAll (h : visitAll needs (fuel + 1) names = .ok order) (hname : name ∈ names)
    {required : List String} (hneeds : needs name = .ok (some required)) : name ∈ order := by
  obtain ⟨earlier, later, rfl⟩ := List.append_of_mem hname
  rw [visitAll, List.foldlM_append] at h
  obtain ⟨before, -, h⟩ := Except.bind_eq_ok_iff.mp h
  rw [List.foldlM_cons] at h
  obtain ⟨after, hafter, h⟩ := Except.bind_eq_ok_iff.mp h
  have hmem : name ∈ after := mem_visit hafter hneeds List.not_mem_nil
  exact (grows_foldlM (fun _ _ _ => grows_visit) h).1 hmem

theorem needs_of_mem_visitAll (h : visitAll needs fuel names = .ok order) (hname : name ∈ order) :
    ∃ required, needs name = .ok (some required) :=
  ((grows_foldlM (fun _ _ _ => grows_visit) h).2 name hname).resolve_left List.not_mem_nil

/-- Looking at a name with a property that is handed on to what is needed lists only such names. -/
theorem forall_mem_visit {P : String → Prop}
    (hP : ∀ n required, P n → needs n = .ok (some required) → ∀ m ∈ required, P m) (hname : P name)
    (horder : ∀ n ∈ order, P n) (h : visit needs fuel path order name = .ok order') :
    ∀ n ∈ order', P n := by
  induction fuel generalizing path order order' name with
  | zero =>
    cases h
    exact horder
  | succ fuel ih =>
    rw [visit] at h
    split at h
    · cases h
      exact horder
    · split at h
      · cases h
      · cases h
        exact horder
      · rename_i required hneeds
        split at h
        · cases h
        · rename_i below hbelow
          cases h
          have hrequired : ∀ n ∈ below, P n :=
            Except.foldlM_invariant (P := fun order : List String => ∀ n ∈ order, P n)
              (fun _ horder m hm _ h => ih (hP name required hname hneeds m hm) horder h) horder
              hbelow
          intro n hn
          rcases List.mem_append.mp hn with hn | hn
          · exact hrequired n hn
          · rwa [List.mem_singleton.mp hn]

theorem forall_mem_visitAll {P : String → Prop}
    (hP : ∀ n required, P n → needs n = .ok (some required) → ∀ m ∈ required, P m)
    (hnames : ∀ n ∈ names, P n) (h : visitAll needs fuel names = .ok order) : ∀ n ∈ order, P n :=
  Except.foldlM_invariant (P := fun order : List String => ∀ n ∈ order, P n)
    (fun _ horder m hm _ h => forall_mem_visit hP (hnames m hm) horder h) (by simp) h

/-! ### Success -/

/-- Nothing fails if no name fails that has a property which is handed on to what is needed. -/
theorem exists_visit {P : String → Prop}
    (hP : ∀ n, P n → ∃ r, needs n = .ok r ∧ ∀ required ∈ r, ∀ m ∈ required, P m) (hname : P name) :
    ∃ order', visit needs fuel path order name = .ok order' := by
  induction fuel generalizing path order name with
  | zero => exact ⟨order, rfl⟩
  | succ fuel ih =>
    rw [visit]
    split
    · exact ⟨order, rfl⟩
    · obtain ⟨r, hneeds, hr⟩ := hP name hname
      rw [hneeds]
      cases r with
      | none => exact ⟨order, rfl⟩
      | some required =>
        obtain ⟨below, hbelow, -⟩ := Except.exists_foldlM_eq_ok (P := fun _ => True)
          (f := visit needs fuel (name :: path)) (l := required) (b := order)
          (fun order _ m hm => (ih (hr required rfl m hm)).imp fun _ h => ⟨h, trivial⟩) trivial
        dsimp only
        rw [hbelow]
        exact ⟨below ++ [name], rfl⟩

theorem exists_visitAll {P : String → Prop}
    (hP : ∀ n, P n → ∃ r, needs n = .ok r ∧ ∀ required ∈ r, ∀ m ∈ required, P m)
    (hnames : ∀ n ∈ names, P n) : ∃ order, visitAll needs fuel names = .ok order := by
  obtain ⟨order, h, -⟩ := Except.exists_foldlM_eq_ok (P := fun _ => True)
    (f := visit needs fuel []) (l := names) (b := [])
    (fun order _ n hn => (exists_visit hP (hnames n hn)).imp fun _ h => ⟨h, trivial⟩) trivial
  exact ⟨order, h⟩

end Postorder

end Cookbook
