import Cookbook.Action.Method

/-!
# The actions that every site has

Entities can be created; simple configuration can be updated; every entity has methods to set its
label, status, properties and third-party settings; and roles have methods to grant and revoke
permissions.

## Main definitions

* `createEntity`, `updateSimple`: the two actions that are no methods.
* `Mapping.setNested`: put a value at a dotted path.
* `grantPermission`, `revokePermission`: the permissions of a role.
* `ActionRegistry.core`: the registry that has all of these.
-/

namespace Cookbook

/-! ### Nested settings -/

/-- The mapping under a key that a value can be put into: a new one if there is none. Under a tagged
mapping nothing can be put. -/
def Mapping.inner? (o : Mapping) (key : String) : Option Mapping :=
  match o.getName? key with
  | some (.map entries) => some ⟨entries⟩
  | some v => if v.isMapping then none else some Mapping.empty
  | none => some Mapping.empty

/-- Put a value where keys lead to, making mappings on the way; what is no mapping is replaced by
one. Below a tagged mapping everything stays as it is. -/
def Mapping.setKeys (o : Mapping) : List String → Value → Mapping
  | [], _ => o
  | [key], v => o.insertName key v
  | key :: rest, v =>
    match o.inner? key with
    | none => o
    | some child => o.insertName key (child.setKeys rest v).toValue

/-- Put a value at a dotted path. -/
def Mapping.setNested (o : Mapping) (path : String) (v : Value) : Mapping :=
  o.setKeys (Text.split '.' path) v

/-! ### Creating and updating -/

/-- A new entity: what every entity has, then the given values. -/
def newEntity (uuid id : String) (values : Mapping) : ConfigObject :=
  (Mapping.ofNames [("uuid", .string uuid), ("langcode", .string "en"), ("status", .bool true),
    ("dependencies", .map []), ("id", .string id)]).insertAll values

/-- Create an entity with the given values. -/
def createEntity (rule : ExistsRule) (types : EntityTypes) (name : String) (v : Value) :
    ConfigM Unit := do
  let found := (← ConfigM.read? none name).isSome
  if ← MonadExcept.ofExcept (rule.stops name found) then return
  match types.ownerOf? name with
  | none => throw (.configAction ("Cannot determine a config entity type from " ++ name))
  | some t =>
    let values ← match v with
      | .map entries => pure (Mapping.mk entries)
      | .null => pure Mapping.empty
      | _ => throw (.configAction ("The value provided to create " ++ name ++ " must be a mapping"))
    ConfigM.write none name (newEntity (← ConfigM.newUuid) ((t.entityId? name).getD "") values)

/-- Put the values of a mapping at the dotted paths that are its keys. -/
def ConfigObject.update (o : ConfigObject) (name : String) (entries : List (Value × Value)) :
    Except Error ConfigObject :=
  entries.foldlM (fun o (k, v) =>
    match k.asString? with
    | some path => .ok (o.setNested path v)
    | none =>
      .error (.configAction ("Config " ++ name ++ " can only be updated with string keys"))) o

/-- Update an object that is there. -/
def updateSimple (name : String) (v : Value) : ConfigM Unit := do
  match ← ConfigM.read? none name with
  | none => throw (.configAction ("Config " ++ name ++ " does not exist so can not be updated"))
  | some o =>
    match v with
    | .map entries => ConfigM.write none name (← MonadExcept.ofExcept (o.update name entries))
    | _ =>
      throw (.configAction ("Config " ++ name
        ++ " can not be updated because the value is not a mapping"))

/-- The actions that are no methods. -/
def plainActions : List ActionDefinition :=
  [{ id := "entity_create:create", label := "Entity create", entityTypes := [allEntityTypes]
     apply := createEntity .errorIfExists },
   { id := "entity_create:ensure_exists", label := "Entity create if it does not exist"
     entityTypes := [allEntityTypes], apply := createEntity .stopIfExists },
   { id := "simple_config_update", label := "Simple configuration update", entityTypes := []
     apply := fun _ => updateSimple }]

/-! ### Methods -/

/-- An argument as a string. -/
def stringArgument (args : List Value) (i : Nat) : String :=
  ((args[i]?).bind Value.asString?).getD ""

/-- An argument. -/
def valueArgument (args : List Value) (i : Nat) : Value := (args[i]?).getD .null

/-- The permissions of a role. -/
def permissions (role : ConfigObject) : List String :=
  match (role.getName? "permissions").bind Value.asSequence? with
  | some items => items.filterMap Value.asString?
  | none => []

/-- Give a role permissions, in ascending order and each once. -/
def setPermissions (role : ConfigObject) (ps : List String) : ConfigObject :=
  role.insertName "permissions" (.seq ((NameMap.distinctNames ps).map .string))

/-- Add a permission to a role. -/
def grantPermission (role : ConfigObject) (p : String) : ConfigObject :=
  setPermissions role (permissions role ++ [p])

/-- Remove a permission from a role. -/
def revokePermission (role : ConfigObject) (p : String) : ConfigObject :=
  setPermissions role ((permissions role).filter (· != p))

/-- The methods of every entity. -/
def entityMethods : List ActionMethod :=
  [{ name := "setLabel", label := "Set label", parameters := [⟨"label", .string, true⟩]
     call := fun o args => .ok (o.insertName "label" (valueArgument args 0)) },
   { name := "setStatus", label := "Set status", parameters := [⟨"status", .boolean, true⟩]
     call := fun o args => .ok (o.insertName "status" (valueArgument args 0)) },
   { name := "set", label := "Set a value"
     parameters := [⟨"property_name", .string, true⟩, ⟨"value", .any, true⟩]
     call := fun o args => .ok (o.insertName (stringArgument args 0) (valueArgument args 1)) },
   { name := "setThirdPartySetting", label := "Set third-party setting"
     parameters := [⟨"module", .string, true⟩, ⟨"key", .string, true⟩, ⟨"value", .any, true⟩]
     call := fun o args => .ok (o.setKeys
       ["third_party_settings", stringArgument args 0, stringArgument args 1]
       (valueArgument args 2)) }]

/-- The methods of roles. -/
def roleMethods : List ActionMethod :=
  [{ name := "grantPermission", label := "Add permission to role"
     parameters := [⟨"permission", .string, true⟩]
     call := fun o args => .ok (grantPermission o (stringArgument args 0)) },
   { name := "revokePermission", label := "Remove permission from role"
     parameters := [⟨"permission", .string, true⟩]
     call := fun o args => .ok (revokePermission o (stringArgument args 0)) }]

/-- The tables of the methods. -/
def coreMethodTables : List MethodTable :=
  [⟨"entity_method", none, entityMethods⟩, ⟨"entity_method", some "user_role", roleMethods⟩]

namespace ActionRegistry

/-- Register the actions of a method table. -/
def registerMethods (r : ActionRegistry) (t : MethodTable) : Except Error Unit × ActionRegistry :=
  r.registerAll (t.definitions r.entityTypes)

/-- The registry with the actions that every site has. -/
def core (types : EntityTypes) : Except Error ActionRegistry :=
  let all := plainActions ++ coreMethodTables.flatMap (·.definitions types)
  match registerAll { entityTypes := types } all with
  | (.ok (), r) => .ok r
  | (.error e, _) => .error e

end ActionRegistry

end Cookbook
