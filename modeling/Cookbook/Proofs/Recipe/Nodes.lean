import Cookbook.Proofs.Recipe.Circles

/-!
# The recipes in a tree

In the tree of a recipe one recipe can be at several places. What is below it is the same at all of
them: the recipes it needs, directly or not. So a question about the places below a recipe is one
about what the recipe needs.

## Main definitions

* `RecipeTree.nodes`, `RecipeTree.descendants`: the trees in a tree, with and without the whole one.

## Main results

* `Application.Grown.exists_descendant_iff`: which recipes are below the root of a tree.
-/

namespace Cookbook

open Relation (ReflTransGen TransGen)

namespace RecipeTree

mutual

/-- The trees in a tree, the whole one first. -/
def nodes : RecipeTree → List RecipeTree
  | node r ts => node r ts :: nodesOfAll ts

/-- The trees in several trees. -/
def nodesOfAll : List RecipeTree → List RecipeTree
  | [] => []
  | t :: ts => nodes t ++ nodesOfAll ts

end

/-- The trees below the root of a tree. -/
def descendants (t : RecipeTree) : List RecipeTree := nodesOfAll t.children

variable {t u v : RecipeTree}

theorem mem_nodesOfAll {ts : List RecipeTree} : u ∈ nodesOfAll ts ↔ ∃ t ∈ ts, u ∈ t.nodes := by
  induction ts with
  | nil => simp [nodesOfAll]
  | cons t ts ih => simp [nodesOfAll, ih]

theorem mem_descendants : u ∈ t.descendants ↔ ∃ c ∈ t.children, u ∈ c.nodes := mem_nodesOfAll

theorem mem_nodes : u ∈ t.nodes ↔ u = t ∨ u ∈ t.descendants := by
  cases t
  rw [nodes, List.mem_cons, descendants, children]

theorem mem_nodes_self (t : RecipeTree) : t ∈ t.nodes := mem_nodes.mpr (.inl rfl)

mutual

/-- What is right below something in a tree is in the tree. -/
theorem mem_nodes_of_mem_children : ∀ {t : RecipeTree}, u ∈ t.nodes → v ∈ u.children → v ∈ t.nodes
  | .node r ts, hu, hv => by
    rcases List.mem_cons.mp hu with rfl | hu
    · exact List.mem_cons_of_mem _ (mem_nodesOfAll.mpr ⟨v, hv, v.mem_nodes_self⟩)
    · exact List.mem_cons_of_mem _ (mem_nodesOfAll_of_mem_children hu hv)

theorem mem_nodesOfAll_of_mem_children : ∀ {ts : List RecipeTree}, u ∈ nodesOfAll ts →
    v ∈ u.children → v ∈ nodesOfAll ts
  | t :: ts, hu, hv => by
    rcases List.mem_append.mp hu with hu | hu
    · exact List.mem_append_left _ (mem_nodes_of_mem_children hu hv)
    · exact List.mem_append_right _ (mem_nodesOfAll_of_mem_children hu hv)

end

theorem mem_descendants_of_mem_children (hu : u ∈ t.descendants) (hv : v ∈ u.children) :
    v ∈ t.descendants :=
  mem_nodesOfAll_of_mem_children hu hv

end RecipeTree

namespace Application

variable {fs : Files} {active : Storage} {a : Application} {t u : RecipeTree} {r : Recipe}

namespace Grown

/-- Below the root there are trees of recipes that the root lists. -/
theorem child (h : a.Grown fs active t) (hu : u ∈ t.children) :
    a.Grown fs active u ∧ a.Needs fs active t.recipe u.recipe := by
  cases h with
  | node _ honly hbelow => exact ⟨hbelow u hu, honly u hu⟩

/-- Everything listed is right below. -/
theorem exists_lists {name : String} (h : a.Grown fs active t) (hname : name ∈ t.recipe.recipes) :
    ∃ u ∈ t.children, a.Lists fs active name t.recipe u.recipe := by
  cases h with
  | node hall _ _ => exact hall name hname

theorem exists_child (h : a.Grown fs active t) (hr : a.Needs fs active t.recipe r) :
    ∃ u ∈ t.children, u.recipe = r := by
  obtain ⟨name, hlists⟩ := hr
  obtain ⟨u, hu, hlists'⟩ := h.exists_lists hlists.1
  exact ⟨u, hu, hlists'.unique hlists⟩

/-- A recipe needs those right below it. -/
theorem mem_children_iff (h : a.Grown fs active t) :
    r ∈ t.children.map (·.recipe) ↔ a.Needs fs active t.recipe r := by
  rw [List.mem_map]
  constructor
  · rintro ⟨c, hc, rfl⟩
    exact (h.child hc).2
  · exact h.exists_child

/-- Every tree in a tree is one of what is needed for the root. -/
theorem of_mem_nodes (h : a.Grown fs active t) (hu : u ∈ t.nodes) :
    a.Grown fs active u ∧ ReflTransGen (a.Needs fs active) t.recipe u.recipe := by
  induction h with
  | @node r ts hall honly hbelow ih =>
    rcases RecipeTree.mem_nodes.mp hu with rfl | hu
    · exact ⟨.node hall honly hbelow, .refl⟩
    · obtain ⟨c, hc, hu⟩ := RecipeTree.mem_descendants.mp hu
      obtain ⟨hgrown, hreach⟩ := ih c hc hu
      exact ⟨hgrown, .head (honly c hc) hreach⟩

theorem exists_node (h : a.Grown fs active t)
    (hr : ReflTransGen (a.Needs fs active) t.recipe r) : ∃ u ∈ t.nodes, u.recipe = r := by
  generalize hx : t.recipe = x at hr
  induction hr using ReflTransGen.head_induction_on generalizing t with
  | refl => exact ⟨t, t.mem_nodes_self, hx⟩
  | head hstep _ ih =>
    subst hx
    obtain ⟨c, hc, hcx⟩ := h.exists_child hstep
    obtain ⟨u, hu, hur⟩ := ih (h.child hc).1 hcx
    exact ⟨u, RecipeTree.mem_nodes.mpr (.inr (RecipeTree.mem_descendants.mpr ⟨c, hc, hu⟩)), hur⟩

theorem of_mem_descendants (h : a.Grown fs active t) (hu : u ∈ t.descendants) :
    a.Grown fs active u :=
  (h.of_mem_nodes (RecipeTree.mem_nodes.mpr (.inr hu))).1

/-- Below the root of a tree are the recipes that are needed for it. -/
theorem exists_descendant_iff (h : a.Grown fs active t) :
    (∃ u ∈ t.descendants, u.recipe = r) ↔ TransGen (a.Needs fs active) t.recipe r := by
  rw [TransGen.head'_iff]
  constructor
  · rintro ⟨u, hu, rfl⟩
    obtain ⟨c, hc, hu⟩ := RecipeTree.mem_descendants.mp hu
    obtain ⟨hgrown, hneeds⟩ := h.child hc
    exact ⟨c.recipe, hneeds, (hgrown.of_mem_nodes hu).2⟩
  · rintro ⟨x, hx, hr⟩
    obtain ⟨c, hc, rfl⟩ := h.exists_child hx
    obtain ⟨u, hu, rfl⟩ := (h.child hc).1.exists_node hr
    exact ⟨u, RecipeTree.mem_descendants.mpr ⟨c, hc, hu⟩, rfl⟩

/-- Everything in a tree was loaded. -/
theorem exists_load {dir : Path} (h : a.Grown fs active t)
    (hload : a.load fs active dir = .ok t.recipe) (hu : u ∈ t.nodes) :
    ∃ dir, a.load fs active dir = .ok u.recipe := by
  obtain ⟨-, hreach⟩ := h.of_mem_nodes hu
  rcases hreach.cases_tail with heq | ⟨-, -, -, -, dir', -, hload'⟩
  · exact ⟨dir, by rw [heq, hload]⟩
  · exact ⟨dir', hload'⟩

end Grown

end Application

end Cookbook
