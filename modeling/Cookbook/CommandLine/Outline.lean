import Cookbook.Recipe.Tree

/-!
# Drawing trees

A tree is drawn with one line for each node. Each line but the first starts with a branch to its
node; the last node below another has a corner, and nothing is drawn below that corner.

## Main definitions

* `Outline`: a tree of labels.
* `Outline.ofTree`: the labels of the recipes of a tree, down to some depth.
* `Outline.lines`: the drawing.
-/

namespace Cookbook

namespace CommandLine

/-- A tree of labels. -/
inductive Outline where
  /-- A label, and what is below it. -/
  | node (label : String) (children : List Outline)

namespace Outline

mutual

/-- The labels of the recipes of a tree, to the given number of levels below the root; without a
number, all. -/
def ofTree (depth : Option Nat) : RecipeTree → Outline
  | .node r ts =>
    node (r.name ++ " (" ++ r.id ++ ")")
      (if depth == some 0 then [] else ofTrees (depth.map (· - 1)) ts)

/-- The same for several trees. -/
def ofTrees (depth : Option Nat) : List RecipeTree → List Outline
  | [] => []
  | t :: ts => ofTree depth t :: ofTrees depth ts

end

mutual

/-- The lines of a drawing: the first starts with one text and the others with another. -/
def linesAfter (first others : String) : Outline → List String
  | node label children => (first ++ label) :: linesBelow others children

/-- The lines of the drawings of what is below a node. -/
def linesBelow (start : String) : List Outline → List String
  | [] => []
  | [t] => linesAfter (start ++ "└─ ") (start ++ "   ") t
  | t :: ts => linesAfter (start ++ "├─ ") (start ++ "│  ") t ++ linesBelow start ts

end

/-- The lines of the drawing of a tree. -/
def lines (t : Outline) : List String := linesAfter "" "" t

end Outline

end CommandLine

end Cookbook
