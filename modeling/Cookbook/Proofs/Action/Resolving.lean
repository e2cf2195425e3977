import Cookbook.Proofs.Action.Shorthands
import Mathlib.Data.List.TakeWhile

/-!
# What an id refers to when actions are added

A full id refers to its own action, whatever is registered later. A shorthand refers to an action
through the entity type that owns a name, and an action that is added cannot have the same shorthand
for that type. But an id is looked for among the full ids first, and the id of an action that is
added may be just what has been a shorthand until then. Such an action has the shorthand too, because
a shorthand has no separator in it; so it can only be added if it does not apply to the type. From
then on the id is its own.

## Main results

* `Text.afterLast_afterLast`: what follows the last separator has none.
* `ActionRegistry.resolve_of_register`: an id that is resolved stays so when an action is added, unless
  it is the id of that action.
* `ActionRegistry.poke_taken_over`: an action that takes over a shorthand.
-/

namespace Cookbook

theorem Text.afterLast_afterLast (sep : Char) (s : String) :
    afterLast sep (afterLast sep s) = afterLast sep s := by
  simp only [afterLast, String.toList_ofList, List.reverse_reverse, List.takeWhile_idem]

variable {d : ActionDefinition} {r r' : ActionRegistry} {id name full : String}

namespace ActionRegistry

theorem contains_register (h : r.register d = .ok r') :
    r'.contains id = (r.contains id || d.id == id) := by
  obtain ⟨-, -, hdefs⟩ := register_eq_ok h
  simp [contains, hdefs]

theorem StandsFor.register {short t : String} {e : ActionDefinition} (he : r.StandsFor short t e)
    (h : r.register d = .ok r') : r'.StandsFor short t e := by
  obtain ⟨-, -, hdefs⟩ := register_eq_ok h
  exact ⟨hdefs ▸ List.mem_append_left _ he.1, he.2⟩

/-- An action whose id is a shorthand for a type can only be added if it does not apply to it. -/
theorem StandsFor.appliesTo_eq_false {t : String} {e : ActionDefinition}
    (he : r.StandsFor d.id t e) (h : r.register d = .ok r') : d.appliesTo t = false := by
  obtain ⟨hmem, hshort, happ⟩ := he
  have hsame : e.shorthand = d.shorthand := by
    rw [ActionDefinition.shorthand, ActionDefinition.shorthand, ← hshort,
      ActionDefinition.shorthand, Text.afterLast_afterLast]
  have hnone := conflict?_eq_none (register_eq_ok h).1 e hmem hsame
  refine Bool.eq_false_iff.mpr fun hd => ?_
  exact ActionDefinition.sharedType?_eq_none_iff.mp hnone t ⟨happ, hd⟩

/-- **Adding an action.** After any calls, an id that is resolved for a name is resolved to the same
action when another one is added, unless it is the full id of that one. Then it was a shorthand, and
the action that is added does not apply to the type that owns the name. -/
theorem resolve_of_register (types : EntityTypes) (calls : List Registration)
    (hadded : (({ entityTypes := types } : ActionRegistry).after calls).register d = .ok r')
    (hresolved : (({ entityTypes := types } : ActionRegistry).after calls).resolve id name
      = .ok full) :
    (d.id ≠ id → r'.resolve id name = .ok full) ∧
    (d.id = id → r'.resolve id name = .ok id ∧
      ∃ owner, types.ownerOf? name = some owner ∧ d.appliesTo owner.id = false) := by
  generalize hr : ({ entityTypes := types } : ActionRegistry).after calls = r at hadded hresolved
  have hclear : r.Clear := hr ▸ Clear.after (r := { entityTypes := types }) List.Pairwise.nil calls
  have htypes : r.entityTypes = types := hr ▸ entityTypes_after { entityTypes := types } calls
  have htypes' : r'.entityTypes = types := (register_eq_ok hadded).2.1.trans htypes
  have hclear' : r'.Clear := hclear.register hadded
  refine ⟨fun hne => hclear'.resolve_eq_ok.mpr ?_, ?_⟩
  · have hcontains : r'.contains id = r.contains id := by
      rw [contains_register hadded, beq_eq_false_iff_ne.mpr hne, Bool.or_false]
    rw [hcontains, htypes']
    refine (hclear.resolve_eq_ok.mp hresolved).imp_right ?_
    rintro ⟨hid, owner, e, howner, he, hfull⟩
    exact ⟨hid, owner, e, htypes ▸ howner, he.register hadded, hfull⟩
  · rintro rfl
    have hnew : r.contains d.id = false :=
      Bool.eq_false_iff.mpr fun h =>
        contains_eq_false_of_conflict? (register_eq_ok hadded).1 (contains_iff.mp h)
    refine ⟨hclear'.resolve_eq_ok.mpr (.inl ⟨?_, rfl⟩), ?_⟩
    · rw [contains_register hadded, beq_self_eq_true, Bool.or_true]
    · -- The id was resolved before it was a full id, so it was a shorthand.
      rcases hclear.resolve_eq_ok.mp hresolved with ⟨hid, -⟩ | ⟨-, owner, e, howner, he, -⟩
      · rw [hnew] at hid
        cases hid
      · exact ⟨owner, htypes ▸ howner, he.appliesTo_eq_false hadded⟩

/-! ### An instance -/

/-- The type of roles. -/
def roleTypes : EntityTypes := EntityTypes.register NameMap.empty ⟨"user_role", "user.role", "user"⟩

/-- An action for roles. -/
def pokeRole : ActionDefinition where
  id := "touch:user.role:poke"
  label := ""
  entityTypes := ["user_role"]
  apply _ _ _ := pure ()

/-- An action for no entities whose id has no separator. -/
def plainPoke : ActionDefinition where
  id := "poke"
  label := ""
  entityTypes := []
  apply _ _ _ := pure ()

/-- Another action for roles. -/
def prodRole : ActionDefinition := { pokeRole with id := "touch:user.role:prod" }

/-- The registry in which roles can be poked. -/
def poking : ActionRegistry where
  entityTypes := roleTypes
  definitions := [pokeRole]

theorem poke_kept : ∃ r', poking.register prodRole = .ok r' ∧
    poking.resolve "poke" "user.role.editor" = .ok pokeRole.id ∧
    r'.resolve "poke" "user.role.editor" = .ok pokeRole.id := by
  have hresolved : poking.resolve "poke" "user.role.editor" = .ok pokeRole.id := rfl
  obtain ⟨r', hadded⟩ : ∃ r', poking.register prodRole = .ok r' := ⟨_, rfl⟩
  exact ⟨r', hadded, hresolved,
    (resolve_of_register roleTypes [.action pokeRole] hadded hresolved).1 (by decide)⟩

/-- The shorthand of an action becomes the full id of another one. -/
theorem poke_taken_over : ∃ r', poking.register plainPoke = .ok r' ∧
    poking.resolve "poke" "user.role.editor" = .ok "touch:user.role:poke" ∧
    r'.resolve "poke" "user.role.editor" = .ok "poke" :=
  ⟨_, rfl, rfl, rfl⟩

end ActionRegistry

end Cookbook
