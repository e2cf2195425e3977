import Cookbook.Error

/-!
# Ordering recipes by name

Recipes are ordered so that each comes after those it needs. A recipe that is reached from itself is
a failure, which names the recipes of the circle.

## Main definitions

* `RecipeOrder.circle`: the circle that a repeated recipe closes.
* `RecipeOrder.order`: the recipes that are needed for one, in the order of applying them.
-/

namespace Cookbook

namespace RecipeOrder

/-- The circle that a recipe closes when it is on the way to itself: the way from there, and the
recipe again. -/
def circle (path : List String) (repeated : String) : List String :=
  let way := path.dropWhile (· != repeated)
  (if way.isEmpty then path else way) ++ [repeated]

/-- List a recipe after those it needs; `path` is the way that led to it. -/
def visit (needs : String → Except Error (List String)) :
    Nat → List String → List String → String → Except Error (List String)
  | 0, _, order, _ => .ok order
  | fuel + 1, path, order, id =>
    if path.contains id then .error (.circularDependency (circle path id))
    else if order.contains id then .ok order
    else do
      let below ← (← needs id).foldlM (visit needs fuel (path ++ [id])) order
      return below ++ [id]

/-- The recipes that are needed for a recipe, each after those it needs, the recipe itself last.
Every recipe that needs others has to be among those known; a way of recipes that are all different
is not longer than their number. -/
def order (known : List String) (needs : String → Except Error (List String)) (root : String) :
    Except Error (List String) :=
  visit needs (known.length + 2) [] [] root

end RecipeOrder

end Cookbook
