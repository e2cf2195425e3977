import Cookbook.Postorder
import Cookbook.Storage.Basic

/-!
# Objects in the order of their dependencies

## Main definitions

* `Objects.dependencyOrder`: the names of objects, each after the objects it needs.
-/

namespace Cookbook

namespace Objects

/-- The names an object needs, ascending; a name without an object is left out. -/
def needs (os : Objects) (name : String) : Except Empty (Option (List String)) :=
  .ok ((os.get? name).map fun o => Storage.sortNames (ConfigObject.dependencies o))

/-- The names of the objects, each after the objects it needs as far as they are among them. Names
are taken in ascending order, so the answer does not depend on anything else. -/
def dependencyOrder (os : Objects) : List String :=
  match Postorder.visitAll (needs os) (os.size + 1) os.names with
  | .ok order => order

end Objects

end Cookbook
