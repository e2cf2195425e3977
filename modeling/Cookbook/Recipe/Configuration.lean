import Cookbook.Extension.Basic
import Cookbook.Recipe.Manifest

/-!
# The configuration a recipe brings

A recipe brings the objects in its directory `config`, those it imports from the default
configuration of extensions, and actions. An object of its own that is there already has to be
equal, apart from what differs between sites.

## Main definitions

* `RecipeConfig`: the configuration of a recipe.
* `ConfigObject.comparable`: an object without what differs between sites.
* `RecipeConfig.ofSection`: the configuration a manifest asks for.
* `RecipeConfig.storage`: the objects it brings.
-/

namespace Cookbook

/-- An action that is applied with a value to what an expression stands for. -/
structure ActionInvocation where
  /-- The expression. -/
  expression : String
  /-- The id of the action. -/
  action : String
  /-- The value. -/
  value : Value

/-- The configuration that a recipe brings. -/
structure RecipeConfig where
  /-- The directory with its own objects, if there is one. -/
  directory : Option Path := none
  /-- What it imports, by extension. -/
  imports : NameMap ImportSpec := NameMap.empty
  /-- The actions, in order. -/
  actions : List ActionInvocation := []

/-- An object without what differs between sites, and without dependencies if it has none. -/
def ConfigObject.comparable (o : ConfigObject) : ConfigObject :=
  let o := (o.eraseName "uuid").eraseName "_core"
  let isEmpty (v : Value) : Bool := v.isNull || v.asMapping?.any Mapping.isEmpty
  if (o.getName? "dependencies").any isEmpty then o.eraseName "dependencies" else o

namespace RecipeConfig

/-- The actions of a manifest, in order; what is no action is left out. -/
def actionsOf (actions : Mapping) : List ActionInvocation :=
  actions.entries.flatMap fun (k, v) =>
    match k.asString?, v.asMapping? with
    | some expression, some m => m.entries.filterMap fun (id, value) =>
      id.asString?.map fun action => { expression, action, value }
    | _, _ => []

/-- The objects in a directory that the active configuration has with other content. -/
def mismatched (fs : Files) (active : Storage) (dir : Path) : Except Error (List String) := do
  let own : Storage := .directory dir
  (← own.listNames fs none).filterM fun name => do
    match ← active.read? fs none name with
    | none => return false
    | some found =>
      let shipped := (← own.read? fs none name).getD Mapping.empty
      return !(found.comparable.same shipped.comparable)

/-- The configuration that the manifest of a recipe asks for. The recipe's own objects may not be
there with other content. -/
def ofSection (fs : Files) (active : Storage) (s : ConfigSection) (dir : Path) (id : String) :
    Except Error RecipeConfig := do
  let own := dir.join "config"
  let directory := if fs.isDir own then some own else none
  if let some own := directory then
    let names ← mismatched fs active own
    if !names.isEmpty then throw (.preExistingConfig id names)
  return { directory, imports := s.imports, actions := actionsOf s.actions }

/-- The objects that are imported of one extension; what it does not have is left out. -/
def importedOf (fs : Files) (catalog : Catalog) (name : String) (spec : ImportSpec) :
    Except Error Objects := do
  match catalog.get? name with
  | none => throw (.unknownExtension name)
  | some x =>
    let names ← match spec with
      | .everything _ => x.defaults.listNames fs none
      | .names l => pure l
    Storage.readEach (fun n => x.defaults.read? fs none n) names

/-- The objects that are imported; of several extensions that have one, the last counts. -/
def imported (fs : Files) (catalog : Catalog) (c : RecipeConfig) : Except Error Objects :=
  c.imports.entries.foldlM (fun found (name, spec) => do
    return found.insertAll (← importedOf fs catalog name spec).entries) NameMap.empty

/-- The objects that a recipe brings: its own, then those it imports. -/
def storage (fs : Files) (catalog : Catalog) (c : RecipeConfig) : Except Error Storage := do
  let own := c.directory.toList.map Storage.directory
  if c.imports.isEmpty then return Storage.mergeAll own
  let found ← imported fs catalog c
  return Storage.mergeAll (own ++ [.memory (NameMap.empty.insert defaultCollection found)])

end RecipeConfig

end Cookbook
