import Cookbook.Action.Core
import Cookbook.Proofs.Workspace

/-!
# The actions that every site has act on one object

An action is given a name, and it may change the object of that name in the default collection. What
it puts there is made from what was there and from the value it is applied with. `Actions.Closed`
says of a property of objects that it survives that; an action then keeps every guard that agrees
with the property at that one place, and says nothing of other places.

The same statement serves for properties that objects really have and, with the property that all
objects have, for showing that other places are untouched.

## Main definitions

* `ActionDefinition.ActsOn`: an action changes one object and keeps a property of it.
* `ActionDefinition.IsCore`: the actions that every site has.
* `ActionRegistry.StaysInMemory`: actions that act through the storage they are given.
* `Actions.Closed`: a property of objects survives what actions do with a value.

## Main results

* `ActionDefinition.IsCore.actsOn`: each of the actions that every site has acts on one object.
* `ActionRegistry.mem_core`: the registry that every site has holds no others.
-/

namespace Cookbook

open Change

/-- An action changes the object of the name it is applied to, and keeps a property of it. -/
def ActionDefinition.ActsOn (Q : ConfigObject → Prop) (d : ActionDefinition) (v : Value) : Prop :=
  ∀ (G : Guard) (types : EntityTypes) (name : String),
    (∀ oo, G defaultCollection name oo → ∀ o ∈ oo, Q o) →
    (∀ o, Q o → G defaultCollection name (some o)) →
    Keeps (Workspace.Obeys G) (d.apply types name v) fun _ => True

/-- One of the actions that every site has: one that is no method, or a method of every entity or of
roles, under any first part of an id and for any entity type. -/
def ActionDefinition.IsCore (d : ActionDefinition) : Prop :=
  d ∈ plainActions ∨ ∃ base type, ∃ m ∈ entityMethods ++ roleMethods, d = m.definition base type

/-- No action takes configuration out of memory. -/
def ActionRegistry.StaysInMemory (r : ActionRegistry) : Prop :=
  ∀ d ∈ r.definitions, ∀ types name v,
    Keeps Workspace.InMemory (d.apply types name v) fun _ => True

/-- A property of objects survives what the actions that every site has do with a value. -/
structure Actions.Closed (Q : ConfigObject → Prop) (v : Value) : Prop where
  /-- New entities have it. -/
  create : ∀ uuid id values, v = values.toValue ∨ values = Mapping.empty →
    Q (newEntity uuid id values)
  /-- Updated objects keep it. -/
  update : ∀ {o o' : ConfigObject} {name entries}, v = .map entries → Q o →
    o.update name entries = .ok o' → Q o'
  /-- The result of a method has it. -/
  call : ∀ m ∈ entityMethods ++ roleMethods, ∀ {type action args}, m.arguments type action v
    = .ok args → ∀ {oo : Option ConfigObject} {o'}, (∀ o ∈ oo, Q o) →
    m.call (oo.getD Mapping.empty) args = .ok o' → Q o'

variable {Q : ConfigObject → Prop} {v : Value}

namespace Actions

theorem closed_true (v : Value) : Closed (fun _ => True) v :=
  ⟨fun _ _ _ _ => trivial, fun _ _ _ => trivial, fun _ _ _ _ _ _ _ _ _ _ => trivial⟩

theorem actsOn_createEntity (h : Closed Q v) (rule : ExistsRule) {d : ActionDefinition}
    (hd : d.apply = createEntity rule) : d.ActsOn Q v := by
  intro G types name hget hput
  rw [hd]
  refine ConfigM.keeps_read?.bind fun oo _ => ?_
  refine Keeps.bind (R := fun _ => True) (Keeps.ofExcept fun _ _ => trivial) fun stop _ => ?_
  cases stop with
  | true => exact Keeps.pure trivial
  | false =>
    dsimp only
    cases types.ownerOf? name with
    | none => exact Keeps.throw _
    | some t =>
      have hwrite : ∀ values : Mapping, v = values.toValue ∨ values = Mapping.empty →
          Keeps (Workspace.Obeys G) (do
            let values ← pure values
            ConfigM.write none name
              (newEntity (← ConfigM.newUuid) ((t.entityId? name).getD "") values))
            fun _ => True := by
        intro values hvalues
        refine Keeps.bind (R := (· = values)) (Keeps.pure rfl) ?_
        rintro _ rfl
        refine ConfigM.keeps_newUuid.bind fun uuid _ => ?_
        exact ConfigM.keeps_write (hput _ (h.create _ _ _ hvalues))
      cases v with
      | map entries => exact hwrite ⟨entries⟩ (.inl rfl)
      | null => exact hwrite Mapping.empty (.inr rfl)
      | _ => exact (Keeps.throw (R := fun _ => False) _).bind fun _ h => h.elim

theorem actsOn_updateSimple (h : Closed Q v) {d : ActionDefinition}
    (hd : d.apply = fun _ => updateSimple) : d.ActsOn Q v := by
  intro G types name hget hput
  rw [hd]
  refine ConfigM.keeps_read?.bind fun oo hoo => ?_
  cases oo with
  | none => exact Keeps.throw _
  | some o =>
    cases v with
    | map entries =>
      refine Keeps.bind (R := fun o' => Q o') (Keeps.ofExcept fun o' ho' => ?_) fun o' ho' => ?_
      · exact h.update rfl (hget _ hoo o rfl) ho'
      · exact ConfigM.keeps_write (hput _ ho')
    | _ => exact Keeps.throw _

theorem actsOn_method (h : Closed Q v) {m : ActionMethod} (hm : m ∈ entityMethods ++ roleMethods)
    (base : String) (type : EntityType) : (m.definition base type).ActsOn Q v := by
  intro G types name hget hput
  refine ConfigM.keeps_read?.bind fun oo hoo => ?_
  refine Keeps.bind (R := fun _ => True) (Keeps.ofExcept fun _ _ => trivial) fun stop _ => ?_
  cases stop with
  | true => exact Keeps.pure trivial
  | false =>
    refine Keeps.bind (Keeps.ofExcept fun args hargs => hargs) fun args hargs => ?_
    refine Keeps.bind (R := fun o' => Q o') (Keeps.ofExcept fun o' ho' => ?_) fun o' ho' => ?_
    · exact h.call m hm hargs (hget _ hoo) ho'
    · exact ConfigM.keeps_write (hput _ ho')

end Actions

/-- The actions that every site has act on one object each. -/
theorem ActionDefinition.IsCore.actsOn {d : ActionDefinition} (hd : d.IsCore)
    (h : Actions.Closed Q v) : d.ActsOn Q v := by
  rcases hd with hd | ⟨base, type, m, hm, rfl⟩
  · simp only [plainActions, List.mem_cons, List.not_mem_nil, or_false] at hd
    rcases hd with rfl | rfl | rfl
    · exact Actions.actsOn_createEntity h .errorIfExists rfl
    · exact Actions.actsOn_createEntity h .stopIfExists rfl
    · exact Actions.actsOn_updateSimple h rfl
  · exact Actions.actsOn_method h hm base type

namespace ActionRegistry

theorem mem_of_registerAll {r : ActionRegistry} {l : List ActionDefinition} {d : ActionDefinition}
    (hd : d ∈ (r.registerAll l).2.definitions) : d ∈ r.definitions ++ l := by
  induction l generalizing r with
  | nil => simpa [registerAll] using hd
  | cons e l ih =>
    rw [registerAll] at hd
    split at hd
    · exact List.mem_append_left _ hd
    · rename_i r' hr'
      have hdefs : r'.definitions = r.definitions ++ [e] := by
        rw [register] at hr'
        split at hr'
        · cases hr'
        · cases hr'
          rfl
      have := ih hd
      rwa [hdefs, List.append_assoc] at this

/-- The definitions of the registry that every site has. -/
theorem mem_core {types : EntityTypes} {r : ActionRegistry} (hr : core types = .ok r)
    {d : ActionDefinition} (hd : d ∈ r.definitions) : d.IsCore := by
  have hall : d ∈ plainActions ++ coreMethodTables.flatMap (·.definitions types) := by
    rw [core] at hr
    split at hr
    · rename_i r' hr'
      cases hr
      have := mem_of_registerAll (r := { entityTypes := types }) (d := d)
        (l := plainActions ++ coreMethodTables.flatMap (·.definitions types))
      rw [hr'] at this
      simpa using this hd
    · cases hr
  rcases List.mem_append.mp hall with hd | hd
  · exact .inl hd
  · obtain ⟨t, ht, hd⟩ := List.mem_flatMap.mp hd
    obtain ⟨type, -, hd⟩ := List.mem_flatMap.mp hd
    obtain ⟨m, hm, rfl⟩ := List.mem_map.mp hd
    refine .inr ⟨t.base, type, m, ?_, rfl⟩
    simp only [coreMethodTables, List.mem_cons, List.not_mem_nil, or_false] at ht
    rcases ht with rfl | rfl
    · exact List.mem_append_left _ hm
    · exact List.mem_append_right _ hm

theorem actsOn_of_core {types : EntityTypes} {r : ActionRegistry} (hr : core types = .ok r)
    {d : ActionDefinition} (hd : d ∈ r.definitions) (h : Actions.Closed Q v) : d.ActsOn Q v :=
  (mem_core hr hd).actsOn h

theorem staysInMemory_of_core {types : EntityTypes} {r : ActionRegistry}
    (hr : core types = .ok r) : r.StaysInMemory := by
  intro d hd types name v
  exact actsOn_of_core hr hd (Actions.closed_true v) .free types name (fun _ _ _ _ => trivial)
    fun _ _ => trivial

end ActionRegistry

end Cookbook
