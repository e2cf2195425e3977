import Cookbook.Action.Core
import Cookbook.Extension.Installer
import Cookbook.Recipe.Configuration
import Cookbook.Recipe.Discovery
import Cookbook.Recipe.InstallPlan
import Cookbook.Schema.Basic

/-!
# Loading recipes

Loading a recipe checks its manifest against the application and the active configuration and
changes nothing. A recipe that breaks a rule is never loaded.

## Main definitions

* `Application`: what recipes are loaded and applied with.
* `Recipe`: a recipe that keeps the rules.
* `Application.load`: the recipe in a directory.
-/

namespace Cookbook

/-- What recipes are loaded and applied with. -/
structure Application where
  /-- The directory of the application. -/
  root : Path
  /-- The extensions there are. -/
  catalog : Catalog
  /-- The actions there are. -/
  actions : ActionRegistry
  /-- The schemas that new objects are checked against, or another check in their place. -/
  schemas : Validator := ([] : Schemas)

/-- A recipe that keeps the rules. -/
structure Recipe where
  /-- The name of its directory, by which other recipes refer to it. -/
  id : String
  /-- Its name for people. -/
  name : String
  /-- What it is for. -/
  description : String
  /-- What kind of recipe it is. -/
  type : String
  /-- Its directory. -/
  path : Path
  /-- The recipes that are applied before it. -/
  recipes : List String
  /-- The extensions it installs. -/
  install : InstallPlan
  /-- The configuration it brings. -/
  config : RecipeConfig
  /-- Its content, which is carried along. -/
  content : Value

namespace Recipe

/-- The file of its manifest. -/
def manifestFile (r : Recipe) : Path := Discovery.manifestFile r.path

/-- Whether it has content. -/
def hasContent (r : Recipe) : Bool :=
  match r.content with
  | .null => false
  | .seq items => !items.isEmpty
  | .map entries => !entries.isEmpty
  | _ => true

end Recipe

namespace Application

/-- Where the recipes that the recipe in a directory needs are looked for. -/
def discovery (a : Application) (dir : Path) : Discovery := Discovery.forRecipe a.root dir

/-- What the rules for the manifest in a directory need to know when some extensions are
installed. -/
def manifestContext (fs : Files) (a : Application) (dir : Path) (installed : List String) :
    ManifestContext where
  recipeExists name := (a.discovery dir).exists? fs name
  extensionExists name := a.catalog.contains name
  availableExtensions install recipes :=
    installed ++ install ++ (a.discovery dir).extensionsInstalledBy fs recipes
  actionExists id expression := (a.actions.resolve id expression).isOk

/-- The path of a recipe's directory: the canonical one, or a missing directory as it is given. -/
def recipePath (fs : Files) (dir : Path) : Path :=
  match fs.canonical dir with
  | .ok p => p
  | .error _ => dir

/-- The recipe in a directory. -/
def load (fs : Files) (active : Storage) (a : Application) (dir : Path) : Except Error Recipe := do
  let path := recipePath fs dir
  let id := path.fileName?.getD ""
  let installed ← active.installedExtensions fs
  let m ← Manifest.parse fs (a.manifestContext fs path installed) (Discovery.manifestFile path) id
  let install ← InstallPlan.ofExtensions a.catalog installed m.install
  let config ← RecipeConfig.ofSection fs active m.config path id
  return {
    id, name := m.name, description := m.description, type := m.type, path
    recipes := m.recipes, install, config, content := m.content }

end Application

end Cookbook
