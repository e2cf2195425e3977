import Cookbook.Proofs.Action.Core
import Cookbook.Proofs.Except
import Cookbook.Proofs.Value.Building

/-!
# The actions that every site has keep objects well-formed

Everything that an action puts into an object is a part of the value it is applied with, or is made
of strings. So if that value has no key twice, neither have the objects that come out, provided that
those that go in do not.

## Main results

* `ActionMethod.isWellFormed_of_arguments`: the arguments of a method are parts of the value.
* `Actions.closed_isWellFormed`: well-formed objects stay well-formed.
-/

namespace Cookbook

/-! ### Arguments -/

namespace ActionMethod

variable {m : ActionMethod} {type action : String} {v : Value}

/-- What is given for parameters is part of the value. -/
def AllGiven (given : List (Option Value)) : Prop :=
  ∀ x, some x ∈ given → x.isWellFormed = true

theorem allGiven_of_spreadNamed {entries : List (Value × Value)} {given : List (Option Value)}
    (hv : ∀ e ∈ entries, e.2.isWellFormed = true)
    (h : m.spreadNamed action entries = .ok given) : AllGiven given := by
  rw [spreadNamed] at h
  refine Except.foldlM_invariant (P := AllGiven) ?_ ?_ h
  · rintro given hgiven ⟨k, w⟩ he given' hstep
    dsimp only at hstep
    split at hstep
    · cases hstep
      intro x hx
      rcases List.mem_or_eq_of_mem_set hx with hx | hx
      · exact hgiven x hx
      · rw [Option.some.inj hx]
        exact hv (k, w) he
    · cases hstep
  · intro x hx
    simp at hx

theorem allGiven_of_spread {given : List (Option Value)} (hv : v.isWellFormed = true)
    (h : m.spread type action v = .ok given) : AllGiven given := by
  have hnone : AllGiven (m.parameters.map fun _ => none) := by
    intro x hx
    simp at hx
  unfold spread at h
  dsimp only at h
  split at h
  · split at h
    · cases h
    · cases h
      intro x hx
      rcases List.mem_or_eq_of_mem_set hx with hx | hx
      · exact hnone x hx
      · rw [Option.some.inj hx]
        exact hv
  · cases v with
    | seq items =>
      dsimp only at h
      split at h
      · cases h
      · cases h
        intro x hx
        rcases List.mem_append.mp hx with hx | hx
        · obtain ⟨y, hy, hxy⟩ := List.mem_map.mp hx
          rw [← Option.some.inj hxy]
          exact Value.areItemsWellFormed_iff.mp hv y hy
        · exact hnone x (List.mem_of_mem_drop hx)
    | map entries =>
      exact allGiven_of_spreadNamed
        (fun e he => ((Value.areEntriesWellFormed_iff.mp hv).1 e he).2) h
    | _ =>
      cases h
      exact hnone

/-- The arguments that a well-formed value gives are well-formed. -/
theorem isWellFormed_of_arguments {args : List Value} (hv : v.isWellFormed = true)
    (h : m.arguments type action v = .ok args) : ∀ x ∈ args, x.isWellFormed = true := by
  obtain ⟨given, hgiven, h⟩ := Except.bind_eq_ok_iff.mp h
  have hall := allGiven_of_spread hv hgiven
  intro x hx
  obtain ⟨⟨p, g⟩, hp, harg⟩ := Except.exists_of_mapM_eq_ok h x hx
  have hgiven := (List.of_mem_zip hp).2
  cases g with
  | none =>
    simp only [argument] at harg
    split at harg
    · cases harg
    · cases harg
      rfl
  | some w =>
    simp only [argument] at harg
    split at harg
    · cases harg
      exact hall x hgiven
    · cases harg

end ActionMethod

/-! ### Objects -/

theorem isWellFormed_valueArgument {args : List Value} (h : ∀ x ∈ args, x.isWellFormed = true)
    (i : Nat) : (valueArgument args i).isWellFormed = true := by
  rw [valueArgument]
  cases hi : args[i]? with
  | none => rfl
  | some x => exact h x (List.mem_of_getElem? hi)

theorem isWellFormed_setPermissions {role : ConfigObject} (h : role.isWellFormed = true)
    (ps : List String) : (setPermissions role ps).isWellFormed = true := by
  refine Mapping.isWellFormed_insertName h (Value.areItemsWellFormed_iff.mpr fun x hx => ?_)
  obtain ⟨s, -, rfl⟩ := List.mem_map.mp hx
  rfl

theorem isWellFormed_newEntity {values : Mapping} (h : values.isWellFormed = true)
    (uuid id : String) : (newEntity uuid id values).isWellFormed = true := by
  refine Mapping.isWellFormed_insertAll (Mapping.isWellFormed_ofNames (by simp) ?_) h
  intro e he
  simp only [List.mem_cons, List.not_mem_nil, or_false] at he
  rcases he with rfl | rfl | rfl | rfl | rfl <;> rfl

theorem ConfigObject.isWellFormed_update {o o' : ConfigObject} {name : String}
    {entries : List (Value × Value)} (ho : o.isWellFormed = true)
    (hentries : ∀ e ∈ entries, e.2.isWellFormed = true) (h : o.update name entries = .ok o') :
    o'.isWellFormed = true := by
  rw [update] at h
  refine Except.foldlM_invariant (P := fun o => o.isWellFormed = true) ?_ ho h
  rintro o ho ⟨k, w⟩ he o' hstep
  dsimp only at hstep
  split at hstep
  · cases hstep
    exact Mapping.isWellFormed_setKeys ho (hentries _ he) _
  · cases hstep

/-- A method with well-formed arguments. -/
theorem isWellFormed_call {m : ActionMethod} (hm : m ∈ entityMethods ++ roleMethods)
    {o o' : ConfigObject} {args : List Value} (ho : o.isWellFormed = true)
    (hargs : ∀ x ∈ args, x.isWellFormed = true) (h : m.call o args = .ok o') :
    o'.isWellFormed = true := by
  have hvalue := isWellFormed_valueArgument hargs
  simp only [entityMethods, roleMethods, List.cons_append, List.nil_append, List.mem_cons,
    List.not_mem_nil, or_false] at hm
  rcases hm with rfl | rfl | rfl | rfl | rfl | rfl <;> cases h
  · exact Mapping.isWellFormed_insertName ho (hvalue 0)
  · exact Mapping.isWellFormed_insertName ho (hvalue 0)
  · exact Mapping.isWellFormed_insertName ho (hvalue 1)
  · exact Mapping.isWellFormed_setKeys ho (hvalue 2) _
  · exact isWellFormed_setPermissions ho _
  · exact isWellFormed_setPermissions ho _

/-- Well-formed objects stay well-formed under the actions that every site has. -/
theorem Actions.closed_isWellFormed {v : Value} (hv : v.isWellFormed = true) :
    Closed (fun o => o.isWellFormed = true) v where
  create uuid id values hvalues := by
    rcases hvalues with rfl | rfl
    · exact isWellFormed_newEntity hv uuid id
    · exact isWellFormed_newEntity rfl uuid id
  update := by
    rintro o o' name entries rfl ho h
    exact ConfigObject.isWellFormed_update ho
      (fun e he => ((Value.areEntriesWellFormed_iff.mp hv).1 e he).2) h
  call := by
    intro m hm type action args hargs oo o' hoo h
    refine isWellFormed_call hm ?_ (ActionMethod.isWellFormed_of_arguments hv hargs) h
    cases oo with
    | none => rfl
    | some o => exact hoo o rfl

end Cookbook
