import Cookbook.Proofs.Extension.Calls

/-!
# Whether requirements are installed

An installation adds all that it reaches, and it does not look behind an extension that is installed
already. So what it brings together is complete only if what was there was complete, and that
depends on the earlier calls. Installing keeps it, unless it breaks off; uninstalling takes away
what it is given, also if that is still required.

Calls that avoid both are called careful here. After careful calls alone everything that is
installed has what it requires, and a successful installation leaves nothing out.

## Main definitions

* `Catalog.Supplies`: what is installed has all it requires.
* `InstallerCall.IsCareful`, `Catalog.AreCareful`: calls that leave it so.

## Main results

* `Catalog.supplies_perform`, `Catalog.supplies_after`: careful calls leave nothing out.
* `Catalog.requirements_installed`: what is installed after a successful installation.
-/

namespace Cookbook

open Change
open Relation (ReflTransGen)

/-- A call takes away nothing that is still required, and does not break off half way. -/
def InstallerCall.IsCareful (catalog : Catalog) (w : Workspace) : InstallerCall → Prop
  | .install names overrides =>
    (outcome (catalog.install names overrides) w).1 = .ok () ∨
      (outcome (catalog.install names overrides) w).2.installed = w.installed
  | .uninstall names =>
    ∀ a ∈ (outcome (catalog.uninstall names) w).2.installed, ∀ b ∈ w.installed,
      catalog.Needs a b → b ∈ (outcome (catalog.uninstall names) w).2.installed

namespace Catalog

variable {catalog : Catalog} {fs : Files} {w : Workspace} {installed names : List String}
  {overrides : Option Storage} {calls : List InstallerCall} {call : InstallerCall}

/-- What is installed has all it requires. -/
def Supplies (catalog : Catalog) (installed : List String) : Prop :=
  ∀ a ∈ installed, ∀ b, catalog.Needs a b → b ∈ installed

/-- Each call is careful when it is made. -/
def AreCareful (catalog : Catalog) : List InstallerCall → Workspace → Prop
  | [], _ => True
  | call :: calls, w =>
    call.IsCareful catalog w ∧ AreCareful catalog calls (outcome (catalog.perform call) w).2

/-- With an extension everything is installed that it leads to. -/
theorem Supplies.mem (h : catalog.Supplies installed) {a b : String} (ha : a ∈ installed)
    (hreach : ReflTransGen catalog.Needs a b) : b ∈ installed := by
  induction hreach with
  | refl => exact ha
  | tail _ hneeds ih => exact h _ ih _ hneeds

/-- What is reached has all it requires if what was there has. -/
theorem Installs.supplies (h : catalog.Installs names overrides w)
    (hok : (outcome (catalog.install names overrides) w).1 = .ok ())
    (hw : catalog.Supplies w.installed) :
    catalog.Supplies (outcome (catalog.install names overrides) w).2.installed := by
  intro a ha b hneeds
  rw [h.installed hok] at ha ⊢
  by_cases hin : a ∈ w.installed
  · exact .inl (hw a hin b hneeds)
  · exact .inr ((ha.resolve_left hin).tail hin hneeds)

theorem supplies_perform (hcatalog : catalog.Named)
    (h : w.Lists fs fun oo => catalog.Sorts (oo.getD Mapping.empty))
    (hcall : call.IsCareful catalog w) (hw : catalog.Supplies w.installed) :
    catalog.Supplies (outcome (catalog.perform call) w).2.installed := by
  cases call with
  | install names overrides =>
    rcases hcall with hok | hsame
    · exact (installs hcatalog names overrides h).supplies hok hw
    · exact hsame.symm ▸ hw
  | uninstall names =>
    intro a ha b hneeds
    have hin := (((uninstalls hcatalog names h).installed a).mp ha).1
    exact hcall a ha b (hw a hin b hneeds) hneeds

theorem supplies_after (hcatalog : catalog.Named)
    (h : w.Lists fs fun oo => catalog.Sorts (oo.getD Mapping.empty))
    (hcalls : catalog.AreCareful calls w) (hw : catalog.Supplies w.installed) :
    catalog.Supplies (catalog.after calls w).installed := by
  induction calls generalizing w with
  | nil => exact hw
  | cons call calls ih =>
    refine ih ?_ hcalls.2 (supplies_perform hcatalog h hcalls.1 hw)
    exact (keeps_lists_perform (preserves_sorts hcatalog) call w h).1

/-- An object in which nothing is installed is sorted by kind, since it lists nothing. -/
theorem lists_of_nothing_installed (hw : w.InMemory) (hnone : w.installed = []) :
    w.Lists w.files fun oo => catalog.Sorts (oo.getD Mapping.empty) := by
  obtain ⟨m, hm⟩ := Workspace.inMemory_iff.mp hw
  have hstands := Workspace.stands_recorded hm
  refine ⟨_, fun kind name hname => ?_, hstands⟩
  have hin : name ∈ w.installed := by
    rw [hstands.installed, installedIn_eq]
    exact ConfigObject.mem_installed_iff.mpr ⟨kind, hname⟩
  rw [hnone] at hin
  cases hin

/-- After an installation that succeeds, all it was given is installed, and all that it reached
through extensions that had not been there. If only careful calls were made before, everything
that is required is installed. Catalogs that are read from files have names as they are needed here
(`Catalog.named_discover`). -/
theorem requirements_installed (hcatalog : catalog.Named) (hw : w.InMemory)
    (hnone : w.installed = []) (calls : List InstallerCall) (names : List String)
    (overrides : Option Storage)
    (hok : (outcome (catalog.install names overrides) (catalog.after calls w)).1 = .ok ()) :
    (∀ name, catalog.Reaches (catalog.after calls w).installed names name →
      name ∈ (outcome (catalog.install names overrides) (catalog.after calls w)).2.installed) ∧
    (catalog.AreCareful calls w → ∀ start ∈ names, ∀ name,
      ReflTransGen catalog.Needs start name →
        name ∈ (outcome (catalog.install names overrides) (catalog.after calls w)).2.installed) := by
  have hstart : w.Lists w.files fun oo => catalog.Sorts (oo.getD Mapping.empty) :=
    lists_of_nothing_installed hw hnone
  have hlists := lists_after (preserves_sorts hcatalog) hstart calls
  have hinstalls := installs hcatalog names overrides hlists
  refine ⟨fun name hname => (hinstalls.installed hok name).mpr (.inr hname), ?_⟩
  intro hcareful start hstart' name hreach
  have hempty : catalog.Supplies w.installed := by
    rw [hnone]
    rintro a ⟨⟩
  have hsupplies := supplies_after hcatalog hstart hcareful hempty
  refine (hinstalls.supplies hok hsupplies).mem ?_ hreach
  exact (hinstalls.installed hok start).mpr (.inr (Reaches.of_mem hstart'))

theorem requirements_installed_blogs :
    (blogs.Named ∧ blankSite.InMemory ∧ blankSite.installed = []) ∧
    let calls := [InstallerCall.install ["blog", "plain"] none, .uninstall ["blog"]]
    blogs.AreCareful calls blankSite ∧
    (blogs.after calls blankSite).installed = ["plain", "text"] ∧
    (outcome (blogs.install ["blog"] none) (blogs.after calls blankSite)).1 = .ok () ∧
    blogs.Needs "blog" "text" ∧
    "text" ∈ (outcome (blogs.install ["blog"] none) (blogs.after calls blankSite)).2.installed := by
  have hmemory : blankSite.InMemory := Workspace.inMemory_iff.mpr ⟨_, rfl⟩
  have hnone : blankSite.installed = [] := by decide +kernel
  have hleft : (blogs.after [.install ["blog", "plain"] none, .uninstall ["blog"]]
      blankSite).installed = ["plain", "text"] := by decide +kernel
  have hcareful : blogs.AreCareful [.install ["blog", "plain"] none, .uninstall ["blog"]]
      blankSite := by
    obtain ⟨⟨⟩, hok, -⟩ : ∃ u, (outcome (blogs.install ["blog", "plain"] none) blankSite).1 = .ok u ∧
        True := by decide +kernel
    refine ⟨.inl hok, ?_, trivial⟩
    rintro a ha b - ⟨x, hx, hb⟩
    -- What is left requires nothing.
    rw [show (outcome (blogs.uninstall ["blog"]) _).2.installed = ["plain", "text"] from hleft]
      at ha
    simp only [List.mem_cons, List.not_mem_nil, or_false] at ha
    rcases ha with rfl | rfl
    · cases hx
      cases hb
    · cases hx
      cases hb
  have hneeds : blogs.Needs "blog" "text" := ⟨_, rfl, by decide⟩
  obtain ⟨⟨⟩, hok, -⟩ : ∃ u, (outcome (blogs.install ["blog"] none) (blogs.after
      [.install ["blog", "plain"] none, .uninstall ["blog"]] blankSite)).1 = .ok u ∧ True := by
    decide +kernel
  refine ⟨⟨named_blogs, hmemory, hnone⟩, hcareful, hleft, hok, hneeds, ?_⟩
  exact (requirements_installed named_blogs hmemory hnone _ ["blog"] none hok).2 hcareful "blog"
    (List.mem_cons_self ..) "text" (.single hneeds)

/-- Three modules, each of which requires the next. -/
def forums : Catalog := NameMap.ofList [
  ("comment", { name := "comment", kind := .module, dependencies := ["text"] }),
  ("forum", { name := "forum", kind := .module, dependencies := ["comment"] }),
  ("text", { name := "text", kind := .module })]

/-- What an installed extension requires may have been taken away. Installing the extension again
does nothing, and it is not brought back for another extension that leads to it either. -/
theorem requirement_missing :
    (forums.Named ∧ blankSite.InMemory ∧ blankSite.installed = []) ∧
    let w := forums.after [.install ["comment"] none, .uninstall ["text"]] blankSite
    ((outcome (forums.install ["comment"] none) w).1 = .ok () ∧
      forums.Needs "comment" "text" ∧
      "text" ∉ (outcome (forums.install ["comment"] none) w).2.installed) ∧
    (outcome (forums.install ["forum"] none) w).1 = .ok () ∧
      ReflTransGen forums.Needs "forum" "text" ∧
      "text" ∉ (outcome (forums.install ["forum"] none) w).2.installed := by
  have hcomment : forums.Needs "forum" "comment" := ⟨_, rfl, by decide⟩
  have htext : forums.Needs "comment" "text" := ⟨_, rfl, by decide⟩
  exact ⟨⟨by decide, Workspace.inMemory_iff.mpr ⟨_, rfl⟩, by decide +kernel⟩,
    ⟨rfl, htext, by decide +kernel⟩, rfl, .tail (.single hcomment) htext, by decide +kernel⟩

end Catalog

end Cookbook
