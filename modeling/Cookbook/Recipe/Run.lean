import Cookbook.Recipe.Tree

/-!
# Running recipes

A recipe is run in three steps: its extensions are installed, with the recipe's content for their
default configuration; the objects it brings that are not there are created and checked; its actions
are applied. Its content is not imported. What was done before a failure stays done.

## Main definitions

* `Validator.createMissing`: create and check the objects that are not there.
* `Application.process`: run one recipe.
* `Application.run`: run the recipes of a tree.
-/

namespace Cookbook

namespace Validator

/-- Check an object of the active configuration. -/
def check (v : Validator) (name : String) : ConfigM Unit := do
  let o ← ConfigM.read? (some defaultCollection) name
  let vs ← MonadExcept.ofExcept (v.violations name (o.getD Mapping.empty))
  if !vs.isEmpty then throw (.invalidConfig name vs)

/-- Create the objects of a source that the active configuration does not have, each after those it
needs, and check them once all are there. The answer names them in that order. -/
def createMissing (v : Validator) (source : Storage) : ConfigM (List String) := do
  let found ← ConfigM.list (some defaultCollection) ""
  let names ← ConfigM.askOf source fun fs s => s.listNames fs (some defaultCollection)
  let missing := names.filter (!found.contains ·)
  if missing.isEmpty then return []
  let os ← ConfigM.askOf source fun fs s => s.readMultiple fs (some defaultCollection) missing
  let order := os.dependencyOrder
  order.forM fun name => do
    if let some o := os.get? name then ConfigM.write (some defaultCollection) name o
  order.forM v.check
  return order

end Validator

/-- Create the objects that are not there and check them against schemas. -/
def Schemas.createMissing (ss : Schemas) (source : Storage) : ConfigM (List String) :=
  Validator.createMissing ss source

namespace Application

/-- The objects that a recipe brings. -/
def brought (a : Application) (r : Recipe) : ConfigM Storage :=
  ConfigM.ask fun fs _ => r.config.storage fs a.catalog

/-- Install the extensions of a recipe one by one: the modules, then the themes, which may need
modules. -/
def installExtensions (a : Application) (r : Recipe) : ConfigM Unit := do
  if r.install.isEmpty then return
  let overrides ← a.brought r
  (r.install.modules ++ r.install.themes).forM fun name =>
    a.catalog.install [name] (some overrides)

/-- Create the objects that a recipe brings and apply its actions. -/
def configure (a : Application) (r : Recipe) : ConfigM Unit := do
  let _ ← a.schemas.createMissing (← a.brought r)
  r.config.actions.forM fun i => a.actions.apply i.action i.expression i.value

/-- Run a recipe, but none of those it needs. -/
def process (a : Application) (r : Recipe) : ConfigM Unit := do
  a.installExtensions r
  a.configure r

/-- Run the recipes of a tree in their order. The answer has their ids. -/
def run (a : Application) (t : RecipeTree) : ConfigM (List String) :=
  t.executionOrder.mapM fun r => do
    a.process r
    return r.id

end Application

end Cookbook
