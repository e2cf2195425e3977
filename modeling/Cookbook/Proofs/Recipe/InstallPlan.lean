import Cookbook.Proofs.Extension.Recording
import Cookbook.Proofs.Recipe.Loading

/-!
# The plan of a recipe and the order of installing

A recipe plans which extensions it installs, and an installation plans once more. Both go through
what extensions require, depth first, but they keep account in different ways. An installation
lists an extension once all it requires is listed, and has the way down apart from that. A plan has
one list only: an extension is put into it as soon as it is met, and is moved to its end when all it
requires is there.

## What makes them comparable

Moving shifts everything behind the place that is left, so places mean little while a plan is made.
But only what came later stands behind it. So whatever is in the list when an extension is met is
where it was when its turn is over, and a turn can be told without places: it adds names at the end.
As long as the one list has just the names that are listed or on the way in the other account, both
pass over the same extensions. So they add the same names in the same order, or fail at the same
name. Circles and extensions that are required twice make no difference.

## Main definitions

* `InstallPlan.AddsAlike`: two lists to which the same names were added.

## Main results

* `InstallPlan.alike_collect`: one turn of a plan and of an installation.
* `InstallPlan.collectAll_eq`: a plan goes through extensions as an installation does.
* `InstallPlan.ofExtensions_eq`, `InstallPlan.installOrder_of_ofExtensions`: the plan for some names
  and the order of installing them.
* `InstallPlan.planned_as_installOrder`: they agree, also in how they fail.
-/

namespace Cookbook

namespace InstallPlan

variable {catalog : Catalog} {installed planned order path names dependencies : List String}
  {fuel : Nat} {p : InstallPlan}

/-- Behind the place of what is moved, everything keeps its order. -/
theorem moveToEnd_append (before : List String) (name : String) (after : List String) :
    moveToEnd before.length (before ++ name :: after) = before ++ after ++ [name] := by
  simp [moveToEnd, List.eraseIdx_append_of_length_le]

/-- Two lists came from two others by adding the same names at the end. -/
def AddsAlike (planned order planned' order' : List String) : Prop :=
  ∃ added, planned' = planned ++ added ∧ order' = order ++ added

namespace AddsAlike

/-- Nothing was added to either list. -/
theorem none (planned order : List String) : AddsAlike planned order planned order :=
  ⟨[], by simp, by simp⟩

/-- Adding can go on. -/
theorem append {added planned' order' : List String}
    (h : AddsAlike (planned ++ added) (order ++ added) planned' order') :
    AddsAlike planned order planned' order' := by
  obtain ⟨more, rfl, rfl⟩ := h
  exact ⟨added ++ more, by simp, by simp⟩

end AddsAlike

/-- **One turn.** If a plan has just the names that an installation has listed or on its way, then a
turn adds the same names to both lists. -/
theorem alike_collect (h : ∀ n, n ∈ planned ↔ n ∈ order ∨ n ∈ path) (name : String) :
    Except.Alike (fun _ => True) (AddsAlike planned order)
      (collect catalog installed fuel planned name)
      (Postorder.visit (catalog.requires installed) fuel path order name) := by
  induction fuel generalizing planned order path name with
  | zero => exact .ok (.none planned order)
  | succ fuel ih =>
    rw [collect, Postorder.visit]
    by_cases hold : name ∈ planned
    · -- Met before: it is listed or on the way, so neither goes on.
      have hold' : (order.contains name || path.contains name) = true := by
        simpa using (h name).mp hold
      rw [if_pos (by simp [hold]), if_pos hold']
      exact .ok (.none planned order)
    have hnew : ¬(order.contains name || path.contains name) = true := by
      simpa [not_or] using mt (h name).mpr hold
    rw [if_neg hnew]
    by_cases hin : name ∈ installed
    · rw [if_pos (by simp [hin]), Catalog.requires_eq_none_iff.mpr hin]
      exact .ok (.none planned order)
    rw [if_neg (by simp [hin, hold])]
    cases hget : catalog.get? name with
    | none =>
      have hunknown : catalog.contains name = false := by simp [NameMap.contains, hget]
      rw [Catalog.requires_eq_error_iff.mpr ⟨hin, hunknown, rfl⟩]
      exact .error trivial
    | some x =>
      rw [Catalog.requires_eq_some_iff.mpr ⟨hin, x, hget, rfl⟩]
      -- What is required is met with the name in the plan, and on the way.
      have hloop : Except.Alike (fun _ => True) (AddsAlike (planned ++ [name]) order)
          (x.requirements.foldlM (collect catalog installed fuel) (planned ++ [name]))
          (x.requirements.foldlM
            (Postorder.visit (catalog.requires installed) fuel (name :: path)) order) := by
        refine Except.Alike.foldlM (fun planned' order' hadds next _ => ?_) (.none _ _)
        obtain ⟨added, rfl, rfl⟩ := hadds
        have hmem : ∀ n, n ∈ planned ++ [name] ++ added ↔
            n ∈ order ++ added ∨ n ∈ name :: path := by
          intro n
          simp only [List.mem_append, List.mem_cons, List.not_mem_nil, or_false, h n]
          tauto
        exact (ih hmem next).mono fun _ _ hmore => hmore.append
      dsimp only
      generalize x.requirements.foldlM (collect catalog installed fuel) (planned ++ [name]) = whole,
        x.requirements.foldlM (Postorder.visit (catalog.requires installed) fuel (name :: path))
          order = below at hloop ⊢
      cases hloop with
      | error he => exact .error he
      | ok hadds =>
        obtain ⟨added, rfl, rfl⟩ := hadds
        -- The name is moved from behind what was there before to behind what was added.
        refine .ok ⟨added ++ [name], ?_, by simp⟩
        rw [List.append_assoc, List.singleton_append, moveToEnd_append, List.append_assoc]

/-- **Whole plans.** Nothing is on the way at the top, so from nothing the two lists stay the
same. -/
theorem collectAll_eq (catalog : Catalog) (installed names : List String) :
    names.foldlM (collect catalog installed (catalog.size + 1)) []
      = catalog.withRequirements installed names := by
  refine Except.Alike.eq (F := fun _ => True) ?_
  refine Except.Alike.foldlM (fun planned order hsame name _ => ?_) rfl
  subst hsame
  have hstart : ∀ n, n ∈ planned ↔ n ∈ planned ∨ n ∈ ([] : List String) := by simp
  refine (alike_collect hstart name).mono ?_
  rintro _ _ ⟨added, rfl, rfl⟩
  rfl

/-! ### Modules and themes -/

/-- The extensions of a kind have the names that are of this kind. -/
theorem map_name_filter (hcatalog : catalog.Named) (kind : ExtensionKind) (names : List String) :
    ((names.filterMap catalog.get?).filter (·.kind = kind)).map (·.name)
      = names.filter fun n => (catalog.get? n).any (·.kind = kind) := by
  induction names with
  | nil => rfl
  | cons n names ih =>
    cases hget : catalog.get? n with
    | none => simpa [hget] using ih
    | some x =>
      obtain rfl := hcatalog n x hget
      by_cases hkind : x.kind = kind
      · simpa [hget, hkind] using ih
      · simpa [hget, hkind] using ih

/-- In a plan everything that is not a theme counts as a module. That is right for extensions that
are in the catalog. -/
theorem filter_not_theme (hknown : ∀ n ∈ names, catalog.contains n = true) :
    (names.filter fun n => !(catalog.get? n).any (·.kind = .theme))
      = names.filter fun n => (catalog.get? n).any (·.kind = .module) := by
  refine List.filter_congr fun n hn => ?_
  obtain ⟨x, hx⟩ := Option.isSome_iff_exists.mp (hknown n hn)
  cases hkind : x.kind <;> simp [hx, hkind]

/-! ### The plan and the order -/

/-- A plan has the names of the extensions that an installation goes through, in that order. -/
theorem ofExtensions_eq (hcatalog : catalog.Named) (installed dependencies : List String) :
    ((ofExtensions catalog installed dependencies).map fun p => p.modules ++ p.themes)
      = (catalog.installOrder installed (dependencies.map Extension.dependencyName)).map
          fun order => order.map (·.name) := by
  rw [ofExtensions, Catalog.installOrder, collectAll_eq]
  cases hfound : catalog.withRequirements installed
      (dependencies.map Extension.dependencyName) with
  | error e => rfl
  | ok found =>
    have hknown : ∀ n ∈ found, catalog.contains n = true := by
      intro n hn
      obtain ⟨required, hneeds⟩ := Postorder.needs_of_mem_visitAll hfound hn
      obtain ⟨-, x, hx, -⟩ := Catalog.requires_eq_some_iff.mp hneeds
      rw [NameMap.contains, hx]
      rfl
    refine congrArg Except.ok ?_
    dsimp only
    rw [filter_not_theme hknown, List.map_append, map_name_filter hcatalog,
      map_name_filter hcatalog]

/-- An installation of the same extensions installs those that a plan names. -/
theorem installOrder_of_ofExtensions (hcatalog : catalog.Named)
    (h : ofExtensions catalog installed dependencies = .ok p) :
    catalog.installOrder installed (dependencies.map Extension.dependencyName)
      = .ok ((p.modules ++ p.themes).filterMap catalog.get?) := by
  have hsame := ofExtensions_eq hcatalog installed dependencies
  rw [h] at hsame
  cases horder : catalog.installOrder installed (dependencies.map Extension.dependencyName) with
  | error e =>
    rw [horder] at hsame
    cases hsame
  | ok order =>
    rw [horder] at hsame
    have hnames : p.modules ++ p.themes = order.map (·.name) := Except.ok.inj hsame
    have hget : ∀ x ∈ order, (catalog.get? ∘ (·.name)) x = some x := by
      intro x hx
      obtain ⟨name, hname, -⟩ := Catalog.mem_installOrder horder hx
      rwa [Function.comp_apply, hcatalog name x hname]
    rw [hnames, List.filterMap_map, List.filterMap_congr hget, List.filterMap_some]

/-- A plan for plain names and the planning of an installation agree: both fail at the same
extension, which is neither installed nor there, or the modules and then the themes of the plan are
the extensions to install, in order. This is so for every catalog that is read from files
(`Catalog.named_discover`). -/
theorem planned_as_installOrder (hcatalog : catalog.Named)
    (hplain : ∀ n ∈ names, Extension.dependencyName n = n) :
    (∃ name, name ∉ installed ∧ catalog.contains name = false ∧
      ofExtensions catalog installed names = .error (.unknownExtension name) ∧
      catalog.installOrder installed names = .error (.unknownExtension name)) ∨
    ∃ p order, ofExtensions catalog installed names = .ok p ∧
      catalog.installOrder installed names = .ok order ∧
      p.extensions = names ∧ p.modules ++ p.themes = order.map (·.name) := by
  have hnames : names.map Extension.dependencyName = names := by
    simpa using List.map_congr_left hplain
  have hsame := ofExtensions_eq hcatalog installed names
  rw [hnames] at hsame
  cases hp : ofExtensions catalog installed names with
  | error e =>
    cases horder : catalog.installOrder installed names with
    | ok order => simp [hp, horder, Except.map] at hsame
    | error e' =>
      obtain ⟨n, -, hout, hunknown, rfl⟩ := Catalog.of_installOrder_eq_error horder
      rw [hp, horder] at hsame
      cases hsame
      exact .inl ⟨n, hout, hunknown, rfl, rfl⟩
  | ok p =>
    cases horder : catalog.installOrder installed names with
    | error e' => simp [hp, horder, Except.map] at hsame
    | ok order =>
      rw [hp, horder] at hsame
      refine .inr ⟨p, order, rfl, rfl, ?_, Except.ok.inj hsame⟩
      rw [(mem_of_ofExtensions hp).1, hnames]

/-- Modules and themes with a circle, in which one module requires a theme. -/
def presses : Catalog := NameMap.ofList [
  ("article", { name := "article", kind := .module, dependencies := ["image", "text"] }),
  ("image", { name := "image", kind := .module, dependencies := ["text", "article", "paper"] }),
  ("paper", { name := "paper", kind := .theme, dependencies := ["text"], baseTheme := "plain" }),
  ("plain", { name := "plain", kind := .theme }),
  ("text", { name := "text", kind := .module })]

theorem planned_presses :
    (presses.Named ∧ ∀ n ∈ ["paper", "article"], Extension.dependencyName n = n) ∧
    ∃ p order, ofExtensions presses ["plain"] ["paper", "article"] = .ok p ∧
      presses.installOrder ["plain"] ["paper", "article"] = .ok order ∧
      p.modules = ["text", "image", "article"] ∧ p.themes = ["paper"] ∧
      p.modules ++ p.themes = order.map (·.name) := by
  have hcatalog : presses.Named := by decide +kernel
  have hplain : ∀ n ∈ ["paper", "article"], Extension.dependencyName n = n := by decide +kernel
  have hplan : ∃ p, ofExtensions presses ["plain"] ["paper", "article"] = .ok p ∧
      p.modules = ["text", "image", "article"] ∧ p.themes = ["paper"] := by decide +kernel
  obtain ⟨p, hp, hmodules, hthemes⟩ := hplan
  refine ⟨⟨hcatalog, hplain⟩, ?_⟩
  rcases @planned_as_installOrder presses ["plain"] _ hcatalog hplain with
    ⟨name, -, -, hfail, -⟩ | ⟨p', order, hp', horder, -, hsame⟩
  · rw [hp] at hfail
    cases hfail
  · rw [hp] at hp'
    cases hp'
    exact ⟨p, order, hp, horder, hmodules, hthemes, hsame⟩

end InstallPlan

end Cookbook
