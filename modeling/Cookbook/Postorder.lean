/-!
# Listing what is needed first

Starting from some names, everything they need is listed before them. A name is left out if it is
listed already, if it is being looked at further up, or if it counts as given; so circles do no
harm.

The way down never meets a name twice, and every name on it has needs of its own, so its length is
bounded by the number of such names; that bound is the fuel.

## Main definitions

* `Postorder.visit`: list a name after what it needs.
* `Postorder.visitAll`: the same for several names, one after the other.
-/

namespace Cookbook

namespace Postorder

universe u

variable {ε : Type u}

/-- List a name after what it needs, unless it is on the way down or listed already. `needs` gives
the names it needs, `none` for a name to leave out. -/
def visit (needs : String → Except ε (Option (List String))) :
    Nat → List String → List String → String → Except ε (List String)
  | 0, _, order, _ => .ok order
  | fuel + 1, path, order, name =>
    if order.contains name || path.contains name then .ok order
    else match needs name with
      | .error e => .error e
      | .ok none => .ok order
      | .ok (some required) =>
        match required.foldlM (visit needs fuel (name :: path)) order with
        | .error e => .error e
        | .ok order => .ok (order ++ [name])

/-- List names one after the other, each after what it needs. -/
def visitAll (needs : String → Except ε (Option (List String))) (fuel : Nat)
    (names : List String) : Except ε (List String) :=
  names.foldlM (visit needs fuel []) []

end Postorder

end Cookbook
