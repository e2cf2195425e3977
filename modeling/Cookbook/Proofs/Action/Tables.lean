import Cookbook.Proofs.Action.Resolving

/-!
# Tables of methods that cannot be registered

Registering one action checks everything before it changes anything, so an action that is refused
leaves no trace. The methods of a table are registered one after the other, and registering ends
with the first that is refused. Those before it are there to stay: nothing takes them back. So a
table that cannot be registered leaves the registry as it was just if its very first action is
refused, and else there are ids that were not resolved before and are now.

## Main results

* `ActionRegistry.left_of_registerAll`: what is left when an action of a list is refused.
* `ActionRegistry.left_of_registerMethods`: what is left of a table that cannot be registered.
-/

namespace Cookbook

variable {d : ActionDefinition} {r r' : ActionRegistry} {id name full : String} {e : Error}

namespace ActionRegistry

theorem eq_of_definitions (hdefs : r'.definitions = r.definitions)
    (htypes : r'.entityTypes = r.entityTypes) : r' = r := by
  cases r
  cases r'
  cases hdefs
  cases htypes
  rfl

/-- What an id is resolved to is registered. -/
theorem contains_of_resolve (h : r.resolve id name = .ok full) : r.contains full = true := by
  rw [resolve] at h
  split at h
  · rename_i hid
    cases h
    exact hid
  · split at h
    · rename_i found hget
      cases h
      obtain ⟨t, -, hget⟩ := Option.bind_eq_some_iff.mp hget
      obtain ⟨d, hd, heq⟩ := List.mem_map.mp (NameMap.mem_of_get?_ofList hget)
      obtain ⟨-, rfl⟩ := Prod.mk.inj heq
      exact contains_iff.mpr (List.mem_map_of_mem (List.mem_of_mem_filter hd))
    · cases h

theorem conflict?_of_register_eq_error (h : r.register d = .error e) : r.conflict? d = some e := by
  rw [register] at h
  split at h
  · rename_i hsome
    cases h
    exact hsome
  · cases h

/-- When an action of a list is refused, those before it have been registered. -/
theorem left_of_registerAll {l : List ActionDefinition} (h : r.registerAll l = (.error e, r')) :
    ∃ before d rest, l = before ++ d :: rest ∧ r'.definitions = r.definitions ++ before ∧
      r'.entityTypes = r.entityTypes ∧ r'.conflict? d = some e := by
  induction l generalizing r with
  | nil => cases h
  | cons d l ih =>
    rw [registerAll] at h
    split at h
    · rename_i herror
      cases h
      exact ⟨[], d, l, rfl, (List.append_nil _).symm, rfl, conflict?_of_register_eq_error herror⟩
    · rename_i r₁ hok
      obtain ⟨-, htypes, hdefs⟩ := register_eq_ok hok
      obtain ⟨before, d', rest, hl, hdefs', htypes', hconflict⟩ := ih h
      refine ⟨d :: before, d', rest, congrArg (d :: ·) hl, ?_, htypes'.trans htypes, hconflict⟩
      rw [hdefs', hdefs, List.append_assoc, List.singleton_append]

/-- An action that has been added is found by its id, and was not before. -/
theorem resolve_ne_of_added {before : List ActionDefinition}
    (hdefs : r'.definitions = r.definitions ++ before) (hd : d ∈ before) (name : String) :
    r'.resolve d.id name = .ok d.id ∧ r.resolve d.id name ≠ .ok d.id := by
  constructor
  · have hnew : r'.contains d.id = true :=
      contains_iff.mpr (List.mem_map_of_mem (hdefs ▸ List.mem_append_right _ hd))
    rw [resolve, if_pos hnew]
  · intro hold
    have hdistinct := r'.distinct
    rw [hdefs, List.map_append, List.nodup_append] at hdistinct
    exact hdistinct.2.2 d.id (contains_iff.mp (contains_of_resolve hold)) d.id
      (List.mem_map_of_mem hd) rfl

/-- **What is left of a table that cannot be registered.** Some action of it is refused, and the
registry has all actions of the table before that one, in their order, after those it had. So it is
as it was just if the first action of the table is refused. Otherwise what ids are resolved to has
changed too. -/
theorem left_of_registerMethods {t : MethodTable} (h : r.registerMethods t = (.error e, r')) :
    ∃ before d rest, t.definitions r.entityTypes = before ++ d :: rest ∧
      r'.definitions = r.definitions ++ before ∧ r'.entityTypes = r.entityTypes ∧
      r'.conflict? d = some e ∧ (r' = r ↔ before = []) ∧
      ((∀ id name, r'.resolve id name = r.resolve id name) ↔ before = []) := by
  obtain ⟨before, d, rest, hl, hdefs, htypes, hconflict⟩ := left_of_registerAll h
  have hsame : before = [] → r' = r := by
    rintro rfl
    exact eq_of_definitions (hdefs.trans (List.append_nil _)) htypes
  have hnone : (∀ id name, r'.resolve id name = r.resolve id name) → before = [] := by
    intro hresolve
    cases before with
    | nil => rfl
    | cons added before =>
      obtain ⟨hnew, hold⟩ := resolve_ne_of_added hdefs List.mem_cons_self ""
      exact absurd ((hresolve added.id "").symm.trans hnew) hold
  refine ⟨before, d, rest, hl, hdefs, htypes, hconflict, ⟨?_, hsame⟩, hnone, fun hnil _ _ => ?_⟩
  · rintro rfl
    exact hnone fun _ _ => rfl
  · rw [hsame hnil]

/-- A method without parameters that changes nothing. -/
def idleMethod (name : String) : ActionMethod where
  name
  parameters := []
  call o _ := .ok o

/-- Roles can be poked already, and prodding them is left behind. -/
theorem prod_left_behind : ∃ e r',
    poking.registerMethods ⟨"m", none, [idleMethod "prod", idleMethod "poke"]⟩ = (.error e, r') ∧
    r' ≠ poking ∧ poking.resolve "prod" "user.role.editor" = .error (.actionNotFound "prod") ∧
    r'.resolve "prod" "user.role.editor" = .ok "m:user.role:prod" := by
  obtain ⟨e, r', h⟩ : ∃ e r',
      poking.registerMethods ⟨"m", none, [idleMethod "prod", idleMethod "poke"]⟩
        = (.error e, r') := ⟨_, _, rfl⟩
  obtain ⟨before, d, rest, hl, -, -, hconflict, hsame, -⟩ := left_of_registerMethods h
  refine ⟨e, r', h, fun heq => ?_, rfl, ?_⟩
  · obtain rfl := hsame.mp heq
    obtain ⟨rfl, rfl⟩ := List.cons.inj hl
    rw [heq] at hconflict
    cases hconflict
  · cases h
    rfl

end ActionRegistry

end Cookbook
