import Cookbook.Action.Registry

/-!
# Methods of entities as actions

An entity type can offer methods: changes of an entity with declared parameters. Each method is an
action for each entity type that offers it.

The value that a recipe gives is spread over the parameters: a sequence by position, a mapping by
name. Anything else, and any value for a single parameter, is one argument, for the only parameter
or the only one that is required. Arguments that are left out are null.

## Main definitions

* `Parameter`, `ActionMethod`, `MethodTable`: declared methods.
* `ActionMethod.arguments`: spreading a value over the parameters.
* `MethodTable.definitions`: the actions of a table.
-/

namespace Cookbook

/-- What a parameter takes. -/
inductive ParameterKind where
  /-- A string. -/
  | string
  /-- A boolean. -/
  | boolean
  /-- An integer. -/
  | integer
  /-- A mapping. -/
  | mapping
  /-- A sequence. -/
  | sequence
  /-- Any value. -/
  | any
  deriving DecidableEq, Repr

namespace ParameterKind

/-- Whether a parameter takes a value. -/
def accepts : ParameterKind → Value → Bool
  | string, v => v.isString
  | boolean, v => v.isBool
  | integer, v => v.isInteger
  | mapping, v => v.isMapping
  | sequence, v => v.isSequence
  | any, _ => true

/-- The word for a kind in messages. -/
def word : ParameterKind → String
  | string => "string"
  | boolean => "boolean"
  | integer => "integer"
  | mapping => "mapping"
  | sequence => "sequence"
  | any => "any"

end ParameterKind

/-- A declared parameter. -/
structure Parameter where
  /-- Its name. -/
  name : String
  /-- What it takes. -/
  kind : ParameterKind
  /-- Whether an argument has to be given. -/
  required : Bool := true
  deriving DecidableEq, Repr

/-- A method that is offered as an action. -/
structure ActionMethod where
  /-- Its name. -/
  name : String
  /-- Its name for people; the entity type and the name if it is empty. -/
  label : String := ""
  /-- Its parameters, in order. -/
  parameters : List Parameter
  /-- What to do when the entity is there or not. -/
  existing : ExistsRule := .errorIfMissing
  /-- The change of an entity, with one argument for each parameter. -/
  call : ConfigObject → List Value → Except Error ConfigObject

/-- Methods that an entity type offers, or every one does. -/
structure MethodTable where
  /-- The first part of the ids. -/
  base : String
  /-- The entity type that offers them; every one if there is none. -/
  entityType : Option String
  /-- The methods. -/
  methods : List ActionMethod

namespace ActionMethod

/-! ### Arguments -/

/-- A failure of a method; the message starts with the id of its action. -/
def failure (action detail : String) : Error :=
  .entityMethod ("Entity method config action '" ++ action ++ "' " ++ detail)

/-- How many parameters need an argument. -/
def requiredCount (m : ActionMethod) : Nat := m.parameters.countP (·.required)

/-- The place of the first parameter that is required, or the first place. -/
def mainPlace (m : ActionMethod) : Nat := (m.parameters.findIdx? (·.required)).getD 0

/-- Put the entries of a mapping to the first parameters of their names. -/
def spreadNamed (m : ActionMethod) (action : String) (entries : List (Value × Value)) :
    Except Error (List (Option Value)) :=
  entries.foldlM (fun given (k, v) =>
    let name := k.asString?.getD ""
    match m.parameters.findIdx? (·.name == name) with
    | some i => .ok (given.set i (some v))
    | none => .error (failure action ("has no parameter named '" ++ name ++ "'")))
    (m.parameters.map fun _ => none)

/-- The arguments that a value gives, by the place of their parameters. -/
def spread (m : ActionMethod) (type action : String) (v : Value) :
    Except Error (List (Option Value)) :=
  let none' : List (Option Value) := m.parameters.map fun _ => none
  if !(v.isSequence || v.isMapping) || m.parameters.length == 1 then
    if m.parameters.length != 1 && m.requiredCount != 1 then
      .error (failure action ("requires an array value. The number of parameters or required "
        ++ "parameters for " ++ type ++ "::" ++ m.name ++ "() is not 1"))
    else .ok (none'.set m.mainPlace (some v))
  else match v with
    | .seq items =>
      if m.parameters.length < items.length then
        .error (failure action ("expects at most " ++ toString m.parameters.length
          ++ " arguments, " ++ toString items.length ++ " given"))
      else .ok (items.map some ++ none'.drop items.length)
    | .map entries => m.spreadNamed action entries
    | _ => .ok none'

/-- The argument for a parameter; one that may be left out is null then. -/
def argument (action : String) (p : Parameter) (given : Option Value) : Except Error Value :=
  match given with
  | some v =>
    if p.kind.accepts v then .ok v
    else .error (failure action ("expects argument '" ++ p.name ++ "' to be " ++ p.kind.word ++ ", "
      ++ v.kind ++ " given"))
  | none =>
    if p.required then
      .error (failure action ("is missing the required argument '" ++ p.name ++ "'"))
    else .ok .null

/-- One argument for each parameter, from the value that a recipe gives. -/
def arguments (m : ActionMethod) (type action : String) (v : Value) :
    Except Error (List Value) := do
  let given ← m.spread type action v
  (m.parameters.zip given).mapM fun (p, g) => argument action p g

/-! ### Actions -/

/-- Change an entity as the method says and save it. -/
def apply (m : ActionMethod) (type action name : String) (v : Value) : ConfigM Unit := do
  let entity ← ConfigM.read? none name
  if ← MonadExcept.ofExcept (m.existing.stops name entity.isSome) then return
  let args ← MonadExcept.ofExcept (m.arguments type action v)
  let entity ← MonadExcept.ofExcept (m.call (entity.getD Mapping.empty) args)
  ConfigM.write none name entity

/-- The action of a method for an entity type. -/
def definition (m : ActionMethod) (base : String) (type : EntityType) : ActionDefinition :=
  let id := base ++ ":" ++ type.stem ++ ":" ++ m.name
  { id
    label := if m.label.isEmpty then type.id ++ " " ++ m.name else m.label
    entityTypes := [type.id]
    apply := fun _ name v => m.apply type.id id name v }

end ActionMethod

namespace MethodTable

/-- The actions of a table: for each entity type that offers its methods, one for each method. -/
def definitions (t : MethodTable) (types : EntityTypes) : List ActionDefinition :=
  let offering := match t.entityType with
    | some id => (types.get? id).toList
    | none => types.values
  offering.flatMap fun type => t.methods.map (·.definition t.base type)

end MethodTable

end Cookbook
