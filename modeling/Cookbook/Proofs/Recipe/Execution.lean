import Cookbook.Proofs.NeedsFirst
import Cookbook.Proofs.Recipe.Nodes

/-!
# The order in which recipes are applied

Recipes are looked up by directory, but when they are put in order they are told apart by id, which
is only the name of a directory. As soon as one recipe with an id is listed, a tree with another
recipe of that id is left out, together with whatever is needed by nothing else.

So a recipe that is listed stands after others with the ids of all that it needs. Only if the names
of the directories in a tree are different are they the recipes that it needs, and only then is
everything in the tree listed.

## Main definitions

* `RecipeTree.NamesTell`: a tree in which recipes with the same id are the same.
* `Application.InOrder`: recipes that stand after others with the ids of all they need.
* `Application.Adds`: what is listed for some recipes.

## Main results

* `Application.adds_addTo`, `Application.adds_addAll`: what is added for trees.
* `Application.needsFirst_of_namesTell`: recipes that stand after those they need.
* `Application.ordered_of_resolve`: the order for the tree of a recipe.
-/

namespace Cookbook

open Relation (ReflTransGen TransGen)

namespace RecipeTree

/-- In a tree, recipes with the same id are in the same directory. -/
def NamesTell (t : RecipeTree) : Prop :=
  ∀ u ∈ t.nodes, ∀ v ∈ t.nodes, u.recipe.id = v.recipe.id → u.recipe.path = v.recipe.path

instance (t : RecipeTree) : Decidable t.NamesTell :=
  inferInstanceAs (Decidable (∀ u ∈ t.nodes, ∀ v ∈ t.nodes, _ → _))

/-- The recipe at the root is applied after everything else. -/
theorem executionOrder_eq (t : RecipeTree) :
    t.executionOrder = addAll [] t.children ++ [t.recipe] := by
  cases t
  rfl

end RecipeTree

namespace Application

variable {fs : Files} {active : Storage} {a : Application} {t u : RecipeTree} {r : Recipe}
  {rs rs' listed listed' listed'' : List Recipe}

/-- Recipes, each once, that stand after others with the ids of all they need. -/
structure InOrder (fs : Files) (active : Storage) (a : Application) (listed : List Recipe) :
    Prop where
  nodup : listed.Nodup
  after : EachAfter (fun before r => ∀ r', a.Needs fs active r r' → ∃ z ∈ before, z.id = r'.id)
    listed

theorem InOrder.nil : InOrder fs active a [] := ⟨List.nodup_nil, .nil⟩

theorem InOrder.concat (h : InOrder fs active a listed) (hnew : r ∉ listed)
    (hafter : ∀ r', a.Needs fs active r r' → ∃ z ∈ listed, z.id = r'.id) :
    InOrder fs active a (listed ++ [r]) where
  nodup := by
    rw [← List.concat_eq_append]
    exact h.nodup.concat hnew
  after := h.after.concat hafter

/-- Recipes are listed for some: only those that are needed, and for each one with its id. -/
structure Adds (fs : Files) (active : Storage) (a : Application) (rs listed listed' : List Recipe) :
    Prop where
  inOrder : InOrder fs active a listed'
  kept : listed ⊆ listed'
  named : ∀ r ∈ rs, ∃ z ∈ listed', z.id = r.id
  needed : ∀ z ∈ listed', z ∈ listed ∨ ∃ r ∈ rs, ReflTransGen (a.Needs fs active) r z

namespace Adds

theorem nil (h : InOrder fs active a listed) : Adds fs active a [] listed listed where
  inOrder := h
  kept := List.Subset.refl _
  named := by simp
  needed := fun _ hz => .inl hz

/-- Nothing is added for a recipe whose id is taken. -/
theorem skip (h : InOrder fs active a listed) (hid : ∃ z ∈ listed, z.id = r.id) :
    Adds fs active a [r] listed listed where
  inOrder := h
  kept := List.Subset.refl _
  named := by
    intro x hx
    rwa [List.mem_singleton.mp hx]
  needed := fun _ hz => .inl hz

theorem cons (h : Adds fs active a [r] listed listed') (h' : Adds fs active a rs listed' listed'') :
    Adds fs active a (r :: rs) listed listed'' where
  inOrder := h'.inOrder
  kept := List.Subset.trans h.kept h'.kept
  named := by
    intro x hx
    rcases List.mem_cons.mp hx with rfl | hx
    · obtain ⟨z, hz, hid⟩ := h.named x (List.mem_singleton_self x)
      exact ⟨z, h'.kept hz, hid⟩
    · exact h'.named x hx
  needed := by
    intro z hz
    rcases h'.needed z hz with hz | ⟨x, hx, hreach⟩
    · refine (h.needed z hz).imp_right ?_
      rintro ⟨x, hx, hreach⟩
      exact ⟨x, List.mem_cons.mpr (.inl (List.mem_singleton.mp hx)), hreach⟩
    · exact .inr ⟨x, List.mem_cons_of_mem _ hx, hreach⟩

/-- A recipe whose id is not taken is added after all that it needs. It is not there by then, as
nothing that it needs leads back to it. -/
theorem concat (h : Adds fs active a rs listed listed') (hnew : r ∉ listed)
    (hrs : ∀ x, x ∈ rs ↔ a.Needs fs active r x) (hcircle : ¬TransGen (a.Needs fs active) r r) :
    Adds fs active a [r] listed (listed' ++ [r]) where
  inOrder := by
    refine h.inOrder.concat (fun hr => ?_) fun x hx => h.named x ((hrs x).mpr hx)
    rcases h.needed r hr with hr | ⟨x, hx, hreach⟩
    · exact hnew hr
    · exact hcircle (.head' ((hrs x).mp hx) hreach)
  kept := List.Subset.trans h.kept (List.subset_append_left _ _)
  named := by
    intro x hx
    rw [List.mem_singleton.mp hx]
    exact ⟨r, List.mem_concat_self, rfl⟩
  needed := by
    intro z hz
    rcases List.mem_append.mp hz with hz | hz
    · refine (h.needed z hz).imp_right ?_
      rintro ⟨x, hx, hreach⟩
      exact ⟨r, List.mem_singleton_self r, hreach.head ((hrs x).mp hx)⟩
    · rw [List.mem_singleton.mp hz]
      exact .inr ⟨r, List.mem_singleton_self r, .refl⟩

end Adds

mutual

theorem adds_addTo : ∀ {t : RecipeTree} {listed : List Recipe}, a.Grown fs active t →
    InOrder fs active a listed → Adds fs active a [t.recipe] listed (t.addTo listed)
  | .node r ts, listed, hgrown, hlisted => by
    rw [RecipeTree.addTo]
    split
    · rename_i hid
      simp only [List.any_eq_true, beq_iff_eq] at hid
      exact .skip hlisted hid
    · rename_i hid
      have hnew : r ∉ listed := by
        intro hr
        exact hid (List.any_eq_true.mpr ⟨r, hr, beq_self_eq_true _⟩)
      have hadds := adds_addAll (fun c hc => (hgrown.child hc).1) hlisted
      exact hadds.concat hnew (fun x => hgrown.mem_children_iff) (not_circle_of_grown hgrown .refl)

theorem adds_addAll : ∀ {ts : List RecipeTree} {listed : List Recipe},
    (∀ t ∈ ts, a.Grown fs active t) → InOrder fs active a listed →
      Adds fs active a (ts.map (·.recipe)) listed (RecipeTree.addAll listed ts)
  | [], _, _, hlisted => by
    rw [RecipeTree.addAll]
    exact .nil hlisted
  | t :: ts, listed, hgrown, hlisted => by
    rw [RecipeTree.addAll]
    have hfirst := adds_addTo (hgrown t (List.mem_cons_self ..)) hlisted
    have hrest := adds_addAll (fun u hu => hgrown u (List.mem_cons_of_mem _ hu)) hfirst.inOrder
    exact hfirst.cons hrest

end

/-- For a whole tree recipes are listed in order, and all of them are in the tree. -/
theorem adds_executionOrder (h : a.Grown fs active t) :
    Adds fs active a [t.recipe] [] t.executionOrder :=
  adds_addTo h .nil

theorem exists_node_of_executionOrder (h : a.Grown fs active t) (hr : r ∈ t.executionOrder) :
    ∃ u ∈ t.nodes, u.recipe = r := by
  rcases (adds_executionOrder h).needed r hr with hr | ⟨x, hx, hreach⟩
  · cases hr
  · rw [List.mem_singleton.mp hx] at hreach
    exact h.exists_node hreach

section Directories

variable {dir : Path}

/-- Recipes in a tree are the same if their directories are. -/
theorem Grown.eq_of_path {v : RecipeTree} (h : a.Grown fs active t)
    (hload : a.load fs active dir = .ok t.recipe) (hu : u ∈ t.nodes) (hv : v ∈ t.nodes)
    (hpath : u.recipe.path = v.recipe.path) : u.recipe = v.recipe := by
  obtain ⟨d, hd⟩ := h.exists_load hload hu
  obtain ⟨d', hd'⟩ := h.exists_load hload hv
  exact Application.eq_of_path hd hd' hpath

/-- No directory is listed twice. -/
theorem nodup_paths_executionOrder (h : a.Grown fs active t)
    (hload : a.load fs active dir = .ok t.recipe) : (t.executionOrder.map (·.path)).Nodup := by
  refine List.Nodup.map_on (fun x hx y hy hpath => ?_) (adds_executionOrder h).inOrder.nodup
  obtain ⟨u, hu, rfl⟩ := exists_node_of_executionOrder h hx
  obtain ⟨v, hv, rfl⟩ := exists_node_of_executionOrder h hy
  exact h.eq_of_path hload hu hv hpath

/-- If names tell recipes apart, each stands after those it needs. -/
theorem needsFirst_of_namesTell (h : a.Grown fs active t)
    (hload : a.load fs active dir = .ok t.recipe) (hnames : t.NamesTell) :
    NeedsFirst (a.Needs fs active) t.executionOrder := by
  intro before r after horder r' hneeds
  have hmem : ∀ x ∈ before, x ∈ t.executionOrder := by
    intro x hx
    rw [horder]
    exact List.mem_append_left _ hx
  have hr : r ∈ t.executionOrder := by
    rw [horder]
    exact List.mem_append_right _ (List.mem_cons_self ..)
  obtain ⟨u, hu, rfl⟩ := exists_node_of_executionOrder h hr
  obtain ⟨hgrown, hreach⟩ := h.of_mem_nodes hu
  obtain ⟨v, hv, rfl⟩ := h.exists_node (hreach.tail hneeds)
  obtain ⟨z, hz, hid⟩ := (adds_executionOrder h).inOrder.after before _ after horder _ hneeds
  obtain ⟨w, hw, rfl⟩ := exists_node_of_executionOrder h (hmem z hz)
  rwa [← h.eq_of_path hload hw hv (hnames w hw v hv hid)]

/-- If names tell recipes apart, nothing in a tree is left out. -/
theorem mem_executionOrder_of_namesTell (h : a.Grown fs active t)
    (hload : a.load fs active dir = .ok t.recipe) (hnames : t.NamesTell) (hu : u ∈ t.nodes) :
    u.recipe ∈ t.executionOrder := by
  have hroot : t.recipe ∈ t.executionOrder := by
    rw [t.executionOrder_eq]
    exact List.mem_concat_self
  exact (needsFirst_of_namesTell h hload hnames).mem_of_reach hroot (h.of_mem_nodes hu).2

/-- The order for the tree of a recipe. No directory is in it twice, and the recipe itself comes
last. Only what is in the tree is listed, after something with the name of each of its children. If
names tell the recipes of the tree apart, all of them are listed, each after its children. -/
theorem ordered_of_resolve (h : a.resolve fs active dir = .ok t) :
    (t.executionOrder.map (·.path)).Nodup ∧
    t.executionOrder.getLast? = some t.recipe ∧
    (∀ r ∈ t.executionOrder, ∃ u ∈ t.nodes, u.recipe = r) ∧
    (∀ u ∈ t.nodes, ∀ before after, t.executionOrder = before ++ u.recipe :: after →
      ∀ v ∈ u.children, ∃ z ∈ before, z.id = v.recipe.id) ∧
    (t.NamesTell → ∀ u ∈ t.nodes, ∃ before after, t.executionOrder = before ++ u.recipe :: after ∧
      ∀ v ∈ u.children, v.recipe ∈ before) := by
  obtain ⟨hload, hgrown⟩ := grown_of_resolve h
  refine ⟨nodup_paths_executionOrder hgrown hload, ?_, fun r hr => ?_, ?_, ?_⟩
  · rw [t.executionOrder_eq, List.getLast?_concat]
  · exact exists_node_of_executionOrder hgrown hr
  · intro u hu before after horder v hv
    obtain ⟨hu, -⟩ := hgrown.of_mem_nodes hu
    exact (adds_executionOrder hgrown).inOrder.after before _ after horder _ (hu.child hv).2
  · intro hnames u hu
    have hmem := mem_executionOrder_of_namesTell hgrown hload hnames hu
    have hfirst := needsFirst_of_namesTell hgrown hload hnames
    obtain ⟨before, after, horder⟩ := List.append_of_mem hmem
    obtain ⟨hu, -⟩ := hgrown.of_mem_nodes hu
    exact ⟨before, after, horder, fun v hv => hfirst before _ after horder _ (hu.child hv).2⟩

end Directories

/-! ### An instance -/

/-- A recipe of the site that needs a core recipe, which needs the core recipe `b`, and one of the
site with a name to be chosen. -/
def besideCore (name : String) : Files where
  tree := .dir [
    ("core", .dir [("recipes", .dir [
      ("a", .dir [("recipe.yml", .file (.text "name: A\nrecipes: [b]"))]),
      ("b", .dir [("recipe.yml", .file (.text "name: Core"))])])]),
    ("recipes", .dir [
      (name, .dir [("recipe.yml", .file (.text "name: Site"))]),
      ("top", .dir [("recipe.yml", .file (.text ("name: Top\nrecipes: [a, " ++ name ++ "]")))])])]

/-- Under another name the recipe of the site is applied; as `b` it is in the tree, but left out. -/
theorem in_order_unless_namesakes :
    (∃ t, plainApplication.resolve (besideCore "c") .null ⟨"/recipes/top"⟩ = .ok t ∧
      t.NamesTell ∧ ∀ u ∈ t.nodes, ∃ before after, t.executionOrder = before ++ u.recipe :: after ∧
        ∀ v ∈ u.children, v.recipe ∈ before) ∧
    ∃ t, plainApplication.resolve (besideCore "b") .null ⟨"/recipes/top"⟩ = .ok t ∧
      (∃ u ∈ t.nodes, u.recipe.path = ⟨"/recipes/b"⟩) ∧
      t.executionOrder.map (·.path) = [⟨"/core/recipes/b"⟩, ⟨"/core/recipes/a"⟩, ⟨"/recipes/top"⟩] := by
  have hother : (match plainApplication.resolve (besideCore "c") .null ⟨"/recipes/top"⟩ with
      | .ok t => decide t.NamesTell
      | .error _ => false) = true := by
    decide +kernel
  have hsame : (match plainApplication.resolve (besideCore "b") .null ⟨"/recipes/top"⟩ with
      | .ok t => decide (∃ u ∈ t.nodes, u.recipe.path = ⟨"/recipes/b"⟩) &&
        t.executionOrder.map (·.path)
          == [⟨"/core/recipes/b"⟩, ⟨"/core/recipes/a"⟩, ⟨"/recipes/top"⟩]
      | .error _ => false) = true := by
    decide +kernel
  constructor
  · split at hother
    · rename_i t ht
      have hnames : t.NamesTell := of_decide_eq_true hother
      obtain ⟨-, -, -, -, hall⟩ := ordered_of_resolve ht
      exact ⟨t, ht, hnames, hall hnames⟩
    · cases hother
  · split at hsame
    · rename_i t ht
      obtain ⟨hnode, horder⟩ := Bool.and_eq_true_iff.mp hsame
      exact ⟨t, ht, of_decide_eq_true hnode, beq_iff_eq.mp horder⟩
    · cases hsame

end Application

end Cookbook
