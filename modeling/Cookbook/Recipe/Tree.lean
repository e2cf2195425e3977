import Cookbook.Recipe.Loading
import Cookbook.Recipe.Order

/-!
# Trees of recipes

A recipe with all the recipes it needs is a tree: a recipe that several others need is in it several
times, though it is loaded once. Recipes are found by the names of their directories; a recipe whose
name is on the way from the root is reported as a circle.

## Main definitions

* `RecipeTree`: a recipe with those it needs.
* `Application.resolve`: the tree of the recipe in a directory.
* `RecipeTree.executionOrder`: the recipes in the order they are applied.
-/

namespace Cookbook

/-- A recipe with the recipes it needs. -/
inductive RecipeTree where
  /-- A recipe, and the trees of those it needs, in order. -/
  | node (recipe : Recipe) (children : List RecipeTree)

namespace RecipeTree

/-- The recipe at the root. -/
def recipe : RecipeTree → Recipe
  | node r _ => r

/-- The trees below the root. -/
def children : RecipeTree → List RecipeTree
  | node _ ts => ts

mutual

/-- List the recipes of a tree that are not listed yet, those that are needed first. -/
def addTo (listed : List Recipe) : RecipeTree → List Recipe
  | node r ts =>
    if listed.any (·.id == r.id) then listed else addAll listed ts ++ [r]

/-- The same for several trees, one after the other. -/
def addAll (listed : List Recipe) : List RecipeTree → List Recipe
  | [] => listed
  | t :: ts => addAll (addTo listed t) ts

end

/-- The recipes in the order they are applied: those that are needed first, each once. -/
def executionOrder (t : RecipeTree) : List Recipe := addTo [] t

end RecipeTree

/-- Trees that are complete, by directory. -/
abbrev BuiltTrees := List (Path × RecipeTree)

namespace BuiltTrees

/-- The tree of a directory. -/
def get? (built : BuiltTrees) (dir : Path) : Option RecipeTree :=
  (built.find? (fun e => e.1.same dir)).map Prod.snd

end BuiltTrees

namespace Application

/-- The tree of a recipe; `path` has the ids on the way from the root. With the trees that were
complete before comes each that is complete now. -/
def build (fs : Files) (active : Storage) (a : Application) :
    Nat → List String → BuiltTrees → Recipe → Except Error (RecipeTree × BuiltTrees)
  | 0, _, _, _ => .error .recipesTooDeep
  | fuel + 1, path, built, r => do
    let path := path ++ [r.id]
    let add (found : List RecipeTree × BuiltTrees) (name : String) :
        Except Error (List RecipeTree × BuiltTrees) := do
      if path.contains name then throw (.circularDependency (RecipeOrder.circle path name))
      let dir ← (a.discovery r.path).find fs name
      match found.2.get? dir with
      | some t => return (found.1 ++ [t], found.2)
      | none =>
        let (t, built) ← build fs active a fuel path found.2 (← a.load fs active dir)
        return (found.1 ++ [t], (dir, t) :: built)
    let (ts, built) ← r.recipes.foldlM add ([], built)
    return (.node r ts, built)

/-- How many directories there are. -/
def directoryCount (fs : Files) : Nat := ((fs.tree.walk []).filter (·.2.isDir)).length + 1

/-- How deep a tree can be. On the way down the ids met and the complete trees can only grow, and
each is one of as many as there are directories; between two times that they grow, no directory can
be met twice on a way that comes to an end. -/
def depthBound (fs : Files) : Nat :=
  (directoryCount fs + 1) * (2 * directoryCount fs + 2)

/-- The tree of the recipe in a directory. -/
def resolve (fs : Files) (active : Storage) (a : Application) (dir : Path) :
    Except Error RecipeTree := do
  let (t, _) ← a.build fs active (depthBound fs) [] [] (← a.load fs active dir)
  return t

end Application

end Cookbook
