import Cookbook.ConfigObject
import Cookbook.Regex.Parser
import Cookbook.Schema.NamePattern
import Cookbook.Text.Blank
import Cookbook.Yaml.Sketch

/-!
# Schemas

A schema says which keys an object has, what their values are and which constraints these satisfy.
It is given for the objects whose names fit a pattern; of several patterns that a name fits, the one
with the most characters other than asterisks counts. Only schemas that are marked as fully
validatable are checked.

The patterns that values have to fit are read and looked for by an engine for regular expressions.
Which one that is makes no difference to the rest; the library has its own.

## Main definitions

* `Schema`, `FieldSchema`: the schemas.
* `RegexEngine`: what reads the patterns of schemas and looks for them.
* `Schemas.add`: the schemas of a document.
* `Schemas.schemaFor?`: the schema that counts for a name.
* `Schemas.violations`: what is wrong with an object.
* `Validator`: any check of objects; schemas are one.
-/

namespace Cookbook

/-- The schema of a key. -/
structure FieldSchema where
  /-- The type of its value. -/
  type : String
  /-- Whether the value may be null. -/
  nullable : Bool := false
  /-- What the value has to satisfy. -/
  constraints : Mapping := Mapping.empty

/-- The schema of an object. -/
structure Schema where
  /-- What the object has to satisfy as a whole. -/
  constraints : Mapping := Mapping.empty
  /-- Its keys. -/
  fields : NameMap FieldSchema := NameMap.empty

/-- A schema with the pattern for the names it is for. -/
structure SchemaEntry where
  /-- The pattern. -/
  pattern : List NamePattern.Token
  /-- How many characters of the pattern's text are no asterisks. -/
  weight : Nat
  /-- The schema. -/
  schema : Schema

/-- Schemas in the order they were added. -/
abbrev Schemas := List SchemaEntry

/-- What reads patterns and looks for them in texts. -/
structure RegexEngine where
  /-- Read a pattern: the texts that it is found in, or what is wrong with it. -/
  compile : String → Except String (String → Bool)

/-- The engine with the expressions of the library. -/
def RegexEngine.own : RegexEngine where
  compile pattern :=
    match Regex.parse? pattern with
    | some r => .ok r.occursIn
    | none => .error "the pattern is malformed"

/-- A check of objects. -/
structure Validator where
  /-- What is wrong with an object of a name. -/
  violations : String → ConfigObject → Except Error (List String)

namespace Schema

/-! ### Documents -/

/-- The schema of a key in a document. -/
def decodeField (n : Yaml.Node) : Yaml.DecodeM FieldSchema := do
  let es ← Yaml.DecodeM.record ["type", "nullable", "constraints"] n
  let type ← Yaml.DecodeM.field es "type" Yaml.DecodeM.text
  let nullable ← Yaml.DecodeM.field? es "nullable" Yaml.DecodeM.flag
  let constraints ← Yaml.DecodeM.field? es "constraints" Yaml.DecodeM.mapping
  return { type, nullable := nullable.getD false, constraints := constraints.getD Mapping.empty }

/-- The schema of an object in a document. -/
def decode (n : Yaml.Node) : Yaml.DecodeM Schema := do
  let es ← Yaml.DecodeM.record ["constraints", "mapping"] n
  let constraints ← Yaml.DecodeM.field? es "constraints" Yaml.DecodeM.mapping
  let fields ← Yaml.DecodeM.field? es "mapping" (Yaml.DecodeM.nameMap decodeField)
  return { constraints := constraints.getD Mapping.empty, fields := fields.getD NameMap.empty }

/-- Whether objects are checked against the schema. -/
def isFullyValidatable (s : Schema) : Bool := s.constraints.containsName "FullyValidatable"

end Schema

/-! ### Checking values -/

namespace FieldSchema

/-- Whether a value is of a type; every value is of a type without a rule. -/
def hasType (type : String) (v : Value) : Bool :=
  match type with
  | "string" | "label" | "text" => v.isString
  | "boolean" => v.isBool
  | "integer" => v.isInteger
  | "float" => v.isNumber
  | "mapping" => v.isMapping
  | "sequence" => v.isSequence
  | _ => true

/-- Whether nothing is in a value. -/
def isBlank : Value → Bool
  | .string s => Text.isBlank s
  | .seq items => items.isEmpty
  | .map entries => entries.isEmpty
  | _ => false

/-- A pattern without the slashes around it. -/
def stripDelimiters (pattern : String) : String :=
  ((Text.stripStart? "/" pattern).bind (Text.stripEnd? "/")).getD pattern

/-- The pattern that a constraint asks for. -/
def pattern? : Value → Option String
  | .string s => some s
  | .map entries => ((Mapping.mk entries).getName? "pattern").bind Value.asString?
  | _ => none

/-- The values that a constraint allows. -/
def choices? : Value → Option (List Value)
  | .seq items => some items
  | .map entries => ((Mapping.mk entries).getName? "choices").bind Value.asSequence?
  | _ => none

/-- Whether a value satisfies the constraint on its blankness. -/
def meetsNotBlank (f : FieldSchema) (v : Value) : Bool :=
  !(f.constraints.containsName "NotBlank" && isBlank v)

/-- Whether a value satisfies the constraint on its pattern. -/
def meetsRegex (engine : RegexEngine) (f : FieldSchema) (v : Value) : Except Error Bool :=
  match (f.constraints.getName? "Regex").bind pattern?, v.asString? with
  | some pattern, some s =>
    match engine.compile (stripDelimiters pattern) with
    | .ok finds => .ok (finds s)
    | .error e => .error (.regex e)
  | _, _ => .ok true

/-- Whether a value satisfies the constraint on the choices. -/
def meetsChoice (f : FieldSchema) (v : Value) : Bool :=
  match (f.constraints.getName? "Choice").bind choices? with
  | some choices => choices.any (·.same v)
  | none => true

/-- What is wrong with the value of a key. -/
def violations (engine : RegexEngine) (f : FieldSchema) (key : String) (v : Value) :
    Except Error (List String) := do
  if v.isNull then
    return if f.nullable then [] else [key ++ ": This value should not be null."]
  if !hasType f.type v then
    return [key ++ ": This value should be of the correct primitive type (" ++ v.kind ++ " given, "
      ++ f.type ++ " expected)."]
  let blank := if f.meetsNotBlank v then [] else [key ++ ": This value should not be blank."]
  let regex := if ← f.meetsRegex engine v then [] else [key ++ ": This value is not valid."]
  let choice := if f.meetsChoice v then []
    else [key ++ ": The value you selected is not a valid choice."]
  return blank ++ regex ++ choice

end FieldSchema

namespace Schema

/-- The keys that every object may have. -/
def baseKeys : List String :=
  ["uuid", "langcode", "status", "dependencies", "third_party_settings", "_core"]

/-- What is wrong with the keys that a schema has. -/
def fieldViolations (engine : RegexEngine) (s : Schema) (o : ConfigObject) :
    Except Error (List String) := do
  let found ← s.fields.entries.mapM fun (key, f) =>
    match o.getName? key with
    | none => .ok [key ++ ": '" ++ key ++ "' is a required key."]
    | some v => f.violations engine key v
  return found.flatten

/-- What is wrong with a key because the schema does not have it. -/
def keyViolation? (s : Schema) (key : Value) : Option String :=
  match key.asString? with
  | none => some (key.sketch ++ ": Keys must be strings.")
  | some name =>
    if s.fields.contains name || baseKeys.contains name then none
    else some (name ++ ": '" ++ name ++ "' is not a supported key.")

end Schema

namespace Schemas

/-- Add the schemas of a document, in name order. Those before a malformed pattern are added all the
same. -/
def add (ss : Schemas) (text : String) : Except Error Unit × Schemas :=
  match Yaml.readAs (Yaml.DecodeM.nameMap Schema.decode) text with
  | .error e => (.error (.ofYaml e), ss)
  | .ok found => go ss found.entries
where
  /-- Add one schema after the other. -/
  go (ss : Schemas) : List (String × Schema) → Except Error Unit × Schemas
    | [] => (.ok (), ss)
    | (name, schema) :: rest =>
      match NamePattern.ofText name with
      | .error e => (.error (.glob e), ss)
      | .ok pattern => go (ss ++ [⟨pattern, name.toList.countP (· != '*'), schema⟩]) rest

/-- The last of the entries with the greatest weight. -/
def heaviest (ss : Schemas) : Option SchemaEntry :=
  ss.foldl (fun best e =>
    match best with
    | some b => if e.weight < b.weight then some b else some e
    | none => some e) none

/-- The schema that counts for a name. -/
def schemaFor? (ss : Schemas) (name : String) : Option Schema :=
  (heaviest (ss.filter (fun e => NamePattern.fits e.pattern name))).map (·.schema)

/-- Whether an object of a name is checked. -/
def checks (ss : Schemas) (name : String) : Bool :=
  (ss.schemaFor? name).any Schema.isFullyValidatable

/-- What is wrong with an object of a name: first the keys of its schema in name order, then its own
keys in order. Without a schema that is to be checked nothing is wrong. -/
def violations (engine : RegexEngine) (ss : Schemas) (name : String) (o : ConfigObject) :
    Except Error (List String) :=
  match ss.schemaFor? name with
  | none => .ok []
  | some s =>
    if !s.isFullyValidatable then .ok []
    else do return (← s.fieldViolations engine o) ++ o.keys.filterMap s.keyViolation?

/-- Schemas are a check of objects, with the engine of the library. -/
instance : Coe Schemas Validator := ⟨fun ss => ⟨ss.violations .own⟩⟩

end Schemas

end Cookbook
