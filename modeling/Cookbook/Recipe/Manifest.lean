import Cookbook.ConfigObject
import Cookbook.Text.Blank

/-!
# Manifests of recipes

A recipe is a directory with a manifest in `recipe.yml`. A manifest is read in two steps: the file
is read as a value, and the value is taken apart into a `Manifest`. Between the two the value is
checked against the rules for manifests, so taking it apart is strict.

## Main definitions

* `Manifest`: what a manifest says.
* `Manifest.readValue`: the value in a manifest file.
* `Manifest.ofValue`: take the value apart.
-/

namespace Cookbook

/-- What is imported of the default configuration of an extension. -/
inductive ImportSpec where
  /-- All of it, whatever mark stands for that. -/
  | everything (mark : String)
  /-- The objects of these names. -/
  | names (l : List String)
  deriving DecidableEq, Repr

/-- The configuration that a manifest asks for. -/
structure ConfigSection where
  /-- What is imported, by extension. -/
  imports : NameMap ImportSpec := NameMap.empty
  /-- The actions: by expression, and in it by the id of the action, the value it is applied with.
  -/
  actions : Mapping := Mapping.empty

/-- What a manifest says. -/
structure Manifest where
  /-- The name of the recipe for people. -/
  name : String
  /-- What the recipe is for. -/
  description : String := ""
  /-- What kind of recipe it is. -/
  type : String := ""
  /-- The recipes that are applied first, by the names of their directories. -/
  recipes : List String := []
  /-- The modules and themes that are installed. -/
  install : List String := []
  /-- The configuration. -/
  config : ConfigSection := {}
  /-- Content, which is carried along. -/
  content : Value := .null

namespace Manifest

/-! ### Files -/

/-- The name of the file that holds a manifest. -/
def fileName : String := "recipe.yml"

/-- The value in a manifest file. -/
def readValue (fs : Files) (path : Path) : Except Error Value :=
  if !fs.isFile path then .error (.manifestMissing path)
  else match fs.readText path with
    | .error e => .error (.manifestUnreadable path e.message)
    | .ok s =>
      if Text.isBlank s then .error (.manifestUnreadable path "the file is empty")
      else match Yaml.readValue s with
        | .error e => .error (.manifestUnreadable path e.message)
        | .ok v => .ok v

/-! ### Taking values apart -/

/-- A failure to take a value apart. -/
def unexpected {α : Type} (v : Value) (expected : String) : Except String α :=
  .error ("invalid type: " ++ v.kind ++ ", expected " ++ expected)

/-- A string, whatever its tag. -/
def stringOf (v : Value) : Except String String :=
  match v.asString? with
  | some s => .ok s
  | none => unexpected v "a string"

/-- The items of a sequence; null has none. -/
def itemsOf (v : Value) : Except String (List Value) :=
  if v.isNull then .ok []
  else match v.asSequence? with
    | some items => .ok items
    | none => unexpected v "a sequence"

/-- The entries of a mapping; null has none. -/
def entriesOf (v : Value) : Except String (List (Value × Value)) :=
  if v.isNull then .ok []
  else match v.asMapping? with
    | some m => .ok m.entries
    | none => unexpected v "a map"

/-- The entries of a mapping whose keys are among those known. -/
def fieldsOf (known : List String) (v : Value) : Except String (List (String × Value)) := do
  (← entriesOf v).mapM fun (k, v) => do
    let name ← stringOf k
    if known.contains name then return (name, v) else throw ("unknown field " ++ name)

/-- A field, or what stands for it when it is left out. -/
def fieldOf {α : Type} (fields : List (String × Value)) (name : String)
    (f : Value → Except String α) (default : Except String α) : Except String α :=
  match fields.find? (fun e => e.1 == name) with
  | some (_, v) => f v
  | none => default

/-- A list of strings. -/
def stringsOf (v : Value) : Except String (List String) := do (← itemsOf v).mapM stringOf

/-- What is imported of an extension. Tags have no place here. -/
def importOf (v : Value) : Except String ImportSpec :=
  match v with
  | .string s => .ok (.everything s)
  | .seq items => do
    let names ← items.mapM fun
      | .string s => .ok s
      | v => unexpected v "a string"
    return .names names
  | v => unexpected v "a string or a sequence"

/-- The imports, by extension. -/
def importsOf (v : Value) : Except String (NameMap ImportSpec) := do
  let es ← (← entriesOf v).mapM fun (k, v) => do return (← stringOf k, ← importOf v)
  return NameMap.ofList es

/-- The keys of the configuration. -/
def configKeys : List String := ["import", "actions"]

/-- The configuration in a document of its own. -/
def decodeConfig (n : Yaml.Node) : Yaml.DecodeM ConfigSection := do
  for (key, _) in ← Yaml.DecodeM.entries n do
    if !configKeys.contains key then throw (.unknownField key)
  let es ← Yaml.DecodeM.record configKeys n
  let spec (n : Yaml.Node) : Yaml.DecodeM ImportSpec := do
    match importOf (← Yaml.DecodeM.value Yaml.DecodeM.maxDepth n) with
    | .ok spec => return spec
    | .error e => throw (.unexpectedShape e)
  let imports ← Yaml.DecodeM.field? es "import" (Yaml.DecodeM.nameMap spec)
  let actions ← Yaml.DecodeM.field? es "actions" Yaml.DecodeM.mapping
  return { imports := imports.getD NameMap.empty, actions := actions.getD Mapping.empty }

/-- The configuration in a text of its own. -/
def readConfig (s : String) : Except Error ConfigSection :=
  match Yaml.readAs decodeConfig s with
  | .ok c => .ok c
  | .error e => .error (.ofYaml e)

/-- The configuration in a manifest. -/
def configOf (v : Value) : Except String ConfigSection := do
  let fields ← fieldsOf configKeys v
  return {
    imports := ← fieldOf fields "import" importsOf (.ok NameMap.empty)
    actions := ← fieldOf fields "actions" (Mapping.mk <$> entriesOf ·) (.ok Mapping.empty) }

/-- The keys of a manifest. -/
def topKeys : List String :=
  ["name", "description", "type", "recipes", "install", "config", "content"]

/-- Leave out the keys of an untagged mapping that are null. -/
def dropNulls : Value → Value
  | .map entries => .map (entries.filter (fun e => !e.2.isNull))
  | v => v

/-- Leave out the keys that are null, in a manifest and in its configuration. -/
def withoutNulls (v : Value) : Value :=
  match dropNulls v with
  | .map entries =>
    .map (entries.map fun e => if e.1.same (.string "config") then (e.1, dropNulls e.2) else e)
  | v => v

/-- Take the value of a manifest apart. -/
def ofValue (v : Value) : Except String Manifest := do
  let fields ← fieldsOf topKeys (withoutNulls v)
  let strings (name : String) := fieldOf fields name stringsOf (.ok [])
  return {
    name := ← fieldOf fields "name" stringOf (.error "missing field name")
    description := ← fieldOf fields "description" stringOf (.ok "")
    type := ← fieldOf fields "type" stringOf (.ok "")
    recipes := ← strings "recipes"
    install := ← strings "install"
    config := ← fieldOf fields "config" configOf (.ok {})
    content := ← fieldOf fields "content" .ok (.ok .null) }

end Manifest

end Cookbook
