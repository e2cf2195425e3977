import Cookbook.Extension.Basic

/-!
# What a recipe installs

The extensions of a recipe with all they require, each after what it requires. An extension is put
into the order as soon as it is met, so that circles end, and moved to the end of the order once
everything it requires is in it.

## Main definitions

* `InstallPlan`: the extensions to install.
* `InstallPlan.ofExtensions`: the plan for the extensions of a recipe.
-/

namespace Cookbook

/-- The extensions that a recipe installs. -/
structure InstallPlan where
  /-- The extensions that the recipe lists. -/
  extensions : List String := []
  /-- The modules to install, each after what it requires. -/
  modules : List String := []
  /-- The themes to install, each after what it requires. -/
  themes : List String := []
  deriving DecidableEq, Repr

namespace InstallPlan

/-- Whether there is nothing to install. -/
def isEmpty (p : InstallPlan) : Bool := p.modules.isEmpty && p.themes.isEmpty

/-- Move the item at a place to the end. -/
def moveToEnd (i : Nat) (l : List String) : List String := l.eraseIdx i ++ (l[i]?).toList

/-- Put an extension with all it requires into the order. Only extensions of the catalog lead on,
and each once, so their number is fuel enough. -/
def collect (catalog : Catalog) (installed : List String) :
    Nat → List String → String → Except Error (List String)
  | 0, order, _ => .ok order
  | fuel + 1, order, name =>
    if installed.contains name || order.contains name then .ok order
    else match catalog.get? name with
      | none => .error (.unknownExtension name)
      | some x => do
        let whole ← x.requirements.foldlM (collect catalog installed fuel) (order ++ [name])
        return moveToEnd order.length whole

/-- The plan for extensions, given as dependencies, when some are installed. -/
def ofExtensions (catalog : Catalog) (installed dependencies : List String) :
    Except Error InstallPlan := do
  let extensions := dependencies.map Extension.dependencyName
  let order ← extensions.foldlM (collect catalog installed (catalog.size + 1)) []
  let isTheme (name : String) : Bool := (catalog.get? name).any (·.kind = .theme)
  return {
    extensions
    modules := order.filter (!isTheme ·)
    themes := order.filter isTheme }

end InstallPlan

end Cookbook
