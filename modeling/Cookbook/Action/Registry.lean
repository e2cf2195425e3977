import Cookbook.Action.Expression

/-!
# Config actions

A config action is a named change of an object. Its full id may have parts separated by colons; the
last part is its shorthand, which is enough to name it for an object of an entity type that the
action applies to. No two actions have the same shorthand for the same entity type.

## Main definitions

* `ExistsRule`: what an action does when its object is there or not.
* `ActionDefinition`: an action with its id and the entity types it applies to.
* `ActionRegistry`: the actions there are, with `register`, `resolve` and `apply`.
-/

namespace Cookbook

/-! ### Existing objects -/

/-- What an action does when its object is there or not. -/
inductive ExistsRule where
  /-- Fail if it is there. -/
  | errorIfExists
  /-- Fail if it is not there. -/
  | errorIfMissing
  /-- Do nothing if it is there. -/
  | stopIfExists
  /-- Do nothing if it is not there. -/
  | stopIfMissing
  deriving DecidableEq, Repr

/-- Whether an action has nothing to do, or why it fails. -/
def ExistsRule.stops (rule : ExistsRule) (name : String) (found : Bool) : Except Error Bool :=
  match rule, found with
  | .errorIfExists, true => .error (.configAction ("Entity " ++ name ++ " exists"))
  | .errorIfMissing, false => .error (.configAction ("Entity " ++ name ++ " does not exist"))
  | .stopIfExists, true => .ok true
  | .stopIfMissing, false => .ok true
  | _, _ => .ok false

/-! ### Actions -/

/-- Stands for all entity types. -/
def allEntityTypes : String := "*"

/-- A config action. -/
structure ActionDefinition where
  /-- Its full id. -/
  id : String
  /-- Its name for people. -/
  label : String
  /-- The ids of the entity types it applies to. -/
  entityTypes : List String
  /-- What it does to an object with a value. -/
  apply : EntityTypes → String → Value → ConfigM Unit

namespace ActionDefinition

/-- The part of the id after the last colon. -/
def shorthand (d : ActionDefinition) : String := Text.afterLast ':' d.id

/-- Whether the shorthand can be used for an entity type. -/
def appliesTo (d : ActionDefinition) (type : String) : Bool :=
  d.entityTypes.any (fun t => t == type || t == allEntityTypes)

/-- The entity type that two entries have in common, if they do. -/
def commonType? (mine theirs : String) : Option String :=
  if mine = theirs then some mine
  else if mine = allEntityTypes then some theirs
  else if theirs = allEntityTypes then some mine
  else none

/-- The first entity type that both actions apply to. -/
def sharedType? (d other : ActionDefinition) : Option String :=
  d.entityTypes.findSome? fun mine => other.entityTypes.findSome? (commonType? mine)

end ActionDefinition

/-- The actions there are. -/
structure ActionRegistry where
  /-- The types of the entities that actions change. -/
  entityTypes : EntityTypes
  /-- The actions, in the order they were registered. -/
  definitions : List ActionDefinition := []
  /-- No id is used twice. -/
  distinct : (definitions.map (·.id)).Nodup := by simp

namespace ActionRegistry

/-! ### Questions -/

/-- The action of a full id. -/
def definition? (r : ActionRegistry) (id : String) : Option ActionDefinition :=
  r.definitions.find? (·.id == id)

/-- Whether there is an action of a full id. -/
def contains (r : ActionRegistry) (id : String) : Bool := r.definitions.any (·.id == id)

/-- The full ids by shorthand for an entity type. -/
def shorthands (r : ActionRegistry) (type : String) : NameMap String :=
  NameMap.ofList ((r.definitions.filter (·.appliesTo type)).map fun d => (d.shorthand, d.id))

/-- The full id of the action that an id stands for when it is used on a name. -/
def resolve (r : ActionRegistry) (id name : String) : Except Error String :=
  if r.contains id then .ok id
  else match (r.entityTypes.ownerOf? name).bind fun t => (r.shorthands t.id).get? id with
    | some full => .ok full
    | none => .error (.actionNotFound id)

/-! ### Registering -/

/-- Why an action cannot be registered: its id is taken, or its shorthand is, for an entity type it
applies to. -/
def conflict? (r : ActionRegistry) (d : ActionDefinition) : Option Error :=
  if r.contains d.id then
    some (.configAction ("A config action with the id '" ++ d.id ++ "' is already registered"))
  else r.definitions.findSome? fun other =>
    if other.shorthand = d.shorthand then
      (other.sharedType? d).map (.duplicateShorthand other.id d.id)
    else none

theorem contains_eq_false_of_conflict? {r : ActionRegistry} {d : ActionDefinition}
    (h : r.conflict? d = none) : d.id ∉ r.definitions.map (·.id) := by
  have hc : r.contains d.id = false := by
    rw [conflict?] at h
    split at h
    · cases h
    · simpa using ‹¬ r.contains d.id = true›
  intro hm
  obtain ⟨other, ho, he⟩ := List.mem_map.1 hm
  have := List.any_eq_false.1 hc other ho
  simp [he] at this

/-- Register an action. -/
def register (r : ActionRegistry) (d : ActionDefinition) : Except Error ActionRegistry :=
  match h : r.conflict? d with
  | some e => .error e
  | none => .ok {
      entityTypes := r.entityTypes
      definitions := r.definitions ++ [d]
      distinct := by
        have := contains_eq_false_of_conflict? h
        rw [List.map_append, List.nodup_append]
        refine ⟨r.distinct, by simp, ?_⟩
        rintro a ha b hb rfl
        simp only [List.map_cons, List.map_nil, List.mem_singleton] at hb
        exact this (hb ▸ ha) }

/-- Register actions one after the other, up to the first that cannot be registered. -/
def registerAll (r : ActionRegistry) : List ActionDefinition → Except Error Unit × ActionRegistry
  | [] => (.ok (), r)
  | d :: rest =>
    match r.register d with
    | .error e => (.error e, r)
    | .ok r => registerAll r rest

/-! ### Applying -/

/-- Apply an action to every object that an expression stands for. -/
def apply (r : ActionRegistry) (id expression : String) (v : Value) : ConfigM Unit := do
  let full ← MonadExcept.ofExcept (r.resolve id expression)
  match r.definition? full with
  | none => throw (.actionNotFound id)
  | some d =>
    (← Expression.names r.entityTypes expression).forM fun name => d.apply r.entityTypes name v

end ActionRegistry

end Cookbook
