import Cookbook.Proofs.NeedsFirst
import Cookbook.Proofs.Postorder

/-!
# A postorder where names may lead back to themselves

Circles do no harm, but a circle cannot be listed with everything after what it needs. What is left
is as much as there can be: a name stands after each name it needs that does not lead back to it.

The way down carries this. Everything on it leads to the name that is looked at, so a name that is
skipped because it is on the way is needed by a name that it leads to. All else that is needed has
been listed by the time its turn is over. That nothing on the way is listed below it is why a name
can be put at the end of the list without being there already.

## Main definitions

* `Postorder.Needs`: a name needs another.
* `Postorder.IsWay`: the way down to a name.
* `Postorder.Ordered`: each name once, and after what it needs as far as that does not lead back.
* `Postorder.Settled`: nothing is left to do for a name.

## Main results

* `Postorder.mem_of_mem_path`: nothing on the way down is listed.
* `Postorder.ordered_of_visit`, `ordered_of_visitAll`: what is listed is in order.
-/

namespace Cookbook

namespace Postorder

open Relation (TransGen)

universe u

variable {ε : Type u} {needs : String → Except ε (Option (List String))} {fuel : Nat}
  {known path order order' names : List String} {name : String}

/-- A name needs another. -/
def Needs (needs : String → Except ε (Option (List String))) (a b : String) : Prop :=
  ∃ required, needs a = .ok (some required) ∧ b ∈ required

/-! ### The way down -/

/-- The way down to a name, the latest first: different names with needs of their own, each of which
leads to the name. -/
structure IsWay (needs : String → Except ε (Option (List String))) (known path : List String)
    (name : String) : Prop where
  nodup : path.Nodup
  subset : path ⊆ known
  leads : ∀ x ∈ path, TransGen (Needs needs) x name

namespace IsWay

theorem start (known : List String) (name : String) : IsWay needs known [] name where
  nodup := List.nodup_nil
  subset := List.nil_subset known
  leads x hx := by cases hx

/-- The way goes on to what a name needs, unless the name is on it. -/
theorem down (h : IsWay needs known path name) (hpath : name ∉ path) (hname : name ∈ known)
    {next : String} (hnext : Needs needs name next) : IsWay needs known (name :: path) next where
  nodup := List.nodup_cons.mpr ⟨hpath, h.nodup⟩
  subset := List.cons_subset.mpr ⟨hname, h.subset⟩
  leads := by
    refine List.forall_mem_cons.mpr ⟨.single hnext, fun x hx => ?_⟩
    exact (h.leads x hx).tail hnext

theorem length_le (h : IsWay needs known path name) : path.length ≤ known.length :=
  h.nodup.length_le_of_subset h.subset

end IsWay

/-! ### One visit -/

/-- What a visit does that lists something: first what the name needs, and then the name. -/
theorem visit_eq_ok (h : visit needs (fuel + 1) path order name = .ok order') :
    order' = order ∨ name ∉ order ∧ name ∉ path ∧ ∃ required below,
      needs name = .ok (some required) ∧
      required.foldlM (visit needs fuel (name :: path)) order = .ok below ∧
      order' = below ++ [name] := by
  rw [visit] at h
  split at h
  · cases h
    exact .inl rfl
  rename_i hnew
  rw [Bool.or_eq_true, not_or, List.contains_iff_mem, List.contains_iff_mem] at hnew
  split at h
  · cases h
  · cases h
    exact .inl rfl
  rename_i required hneeds
  split at h
  · cases h
  rename_i below hbelow
  cases h
  exact .inr ⟨hnew.1, hnew.2, required, below, hneeds, hbelow, rfl⟩

/-- Nothing on the way down is listed. -/
theorem mem_of_mem_path (h : visit needs fuel path order name = .ok order') :
    ∀ x ∈ path, x ∈ order' → x ∈ order := by
  induction fuel generalizing path order order' name with
  | zero =>
    cases h
    exact fun x _ hx => hx
  | succ fuel ih =>
    obtain rfl | ⟨-, hpath, required, below, -, hbelow, rfl⟩ := visit_eq_ok h
    · exact fun x _ hx => hx
    have hkept : ∀ x ∈ name :: path, x ∈ below → x ∈ order :=
      Except.foldlM_invariant (P := fun found => ∀ x ∈ name :: path, x ∈ found → x ∈ order)
        (fun found hfound next _ found' hv x hx hmem => hfound x hx (ih hv x hx hmem))
        (fun x _ hx => hx) hbelow
    intro x hx hmem
    rcases List.mem_append.mp hmem with hmem | hmem
    · exact hkept x (List.mem_cons_of_mem _ hx) hmem
    · exact absurd (List.mem_singleton.mp hmem ▸ hx) hpath

/-! ### The order -/

/-- Each name is there once, and after each name it needs that has needs of its own and does not
lead back to it. -/
structure Ordered (needs : String → Except ε (Option (List String))) (order : List String) :
    Prop where
  nodup : order.Nodup
  needsFirst : EachAfter (fun before a => ∀ b, Needs needs a b →
    (∃ required, needs b = .ok (some required)) → b ∈ before ∨ TransGen (Needs needs) b a) order

namespace Ordered

theorem nil : Ordered needs [] where
  nodup := List.nodup_nil
  needsFirst := EachAfter.nil

theorem concat (h : Ordered needs order) (hname : name ∉ order)
    (hneeds : ∀ b, Needs needs name b → (∃ required, needs b = .ok (some required)) →
      b ∈ order ∨ TransGen (Needs needs) b name) : Ordered needs (order ++ [name]) where
  nodup := by
    refine List.nodup_append.mpr ⟨h.nodup, List.nodup_singleton name, fun x hx y hy => ?_⟩
    rw [List.mem_singleton.mp hy]
    rintro rfl
    exact hname hx
  needsFirst := h.needsFirst.concat hneeds

end Ordered

/-- A name that is left out below a way, or done with: it is listed or on the way, unless it has no
needs of its own. -/
def Settled (needs : String → Except ε (Option (List String))) (path order : List String)
    (name : String) : Prop :=
  (∃ required, needs name = .ok (some required)) → name ∈ order ∨ name ∈ path

theorem Settled.grow (h : Settled needs path order name) (hgrows : Grows needs order order') :
    Settled needs path order' name :=
  fun hneeds => (h hneeds).imp_left fun hmem => hgrows.1 hmem

/-- A visit keeps the order and settles the name, given fuel for every way that is left. -/
theorem ordered_of_visit
    (hknown : ∀ x, (∃ required, needs x = .ok (some required)) → x ∈ known)
    (hfuel : known.length < fuel + path.length) (hway : IsWay needs known path name)
    (horder : Ordered needs order) (h : visit needs fuel path order name = .ok order') :
    Ordered needs order' ∧ Settled needs path order' name := by
  induction fuel generalizing path order order' name with
  | zero =>
    have hlength := hway.length_le
    omega
  | succ fuel ih =>
    refine ⟨?_, fun ⟨required, hneeds⟩ => ?_⟩
    · obtain rfl | ⟨hname, hpath, required, below, hneeds, hbelow, rfl⟩ := visit_eq_ok h
      · exact horder
      have hfuel' : known.length < fuel + (name :: path).length := by
        rw [List.length_cons]
        omega
      -- Every step keeps the order, lists nothing on the way, and settles what it is for.
      have hstep : ∀ found, Ordered needs found ∧ name ∉ found → ∀ next ∈ required,
          ∀ found', visit needs fuel (name :: path) found next = .ok found' →
          (Ordered needs found' ∧ name ∉ found') ∧ Settled needs (name :: path) found' next ∧
            ∀ x, Settled needs (name :: path) found x → Settled needs (name :: path) found' x := by
        rintro found ⟨hordered, hout⟩ next hnext found' hv
        have hdown : IsWay needs known (name :: path) next :=
          hway.down hpath (hknown name ⟨required, hneeds⟩) ⟨required, hneeds, hnext⟩
        obtain ⟨hordered', hsettled⟩ := ih hfuel' hdown hordered hv
        refine ⟨⟨hordered', fun hin => hout ?_⟩, hsettled, fun x hx => hx.grow (grows_visit hv)⟩
        exact mem_of_mem_path hv name (List.mem_cons_self ..) hin
      obtain ⟨⟨hordered, hout⟩, hsettled, -⟩ := Except.foldlM_brings hstep ⟨horder, hname⟩ hbelow
      refine hordered.concat hout fun b hb hr => ?_
      obtain ⟨required', hneeds', hrequired⟩ := hb
      rw [hneeds] at hneeds'
      cases hneeds'
      -- What is skipped because it is on the way is the name, or leads to it.
      rcases hsettled b hrequired hr with hlisted | hskipped
      · exact .inl hlisted
      · refine .inr ?_
        rcases List.mem_cons.mp hskipped with rfl | hskipped
        · exact .single ⟨required, hneeds, hrequired⟩
        · exact hway.leads b hskipped
    · by_cases hpath : name ∈ path
      · exact .inr hpath
      · exact .inl (mem_visit h hneeds hpath)

theorem ordered_of_visitAll
    (hknown : ∀ x, (∃ required, needs x = .ok (some required)) → x ∈ known)
    (hfuel : known.length < fuel) (h : visitAll needs fuel names = .ok order) :
    Ordered needs order :=
  Except.foldlM_invariant (P := Ordered needs)
    (fun _ hordered name _ _ hv =>
      (ordered_of_visit hknown hfuel (IsWay.start known name) hordered hv).1)
    Ordered.nil h

end Postorder

end Cookbook
