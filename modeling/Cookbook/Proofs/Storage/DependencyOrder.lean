import Cookbook.Proofs.Postorder.Circles
import Cookbook.Proofs.Storage.Changes
import Mathlib.Data.List.Permutation

/-!
# Objects after what they depend on

An object may list names of other collections or of nothing at all, itself, or objects that list it
in turn. Only what it lists among the objects that are put in order has a place in it, and of that
everything comes first that does not lead back.

## Main definitions

* `Objects.Lists`: an object lists another as a dependency.

## Main results

* `Objects.nodup_dependencyOrder`: each name is there once.
* `Objects.exists_before`: what an object lists comes before it, unless it leads back to it.
-/

namespace Cookbook

namespace ConfigObject

/-- Everything that is enforced is a dependency, and so is all else that is listed. -/
theorem mem_dependencies {o : ConfigObject} {name : String} :
    name ∈ o.dependencies ↔ name ∈ stringsAt o "dependencies.config" ∨
      name ∈ stringsAt o "dependencies.enforced.config" := by
  rw [dependencies]
  generalize stringsAt o "dependencies.config" = found
  generalize stringsAt o "dependencies.enforced.config" = enforced
  induction enforced generalizing found with
  | nil => simp
  | cons n enforced ih =>
    rw [List.foldl_cons, ih, List.mem_cons]
    by_cases hn : n ∈ found
    · rw [if_pos (List.contains_iff_mem.mpr hn)]
      constructor
      · exact Or.imp_right .inr
      · rintro (h | rfl | h)
        · exact .inl h
        · exact .inl hn
        · exact .inr h
    · rw [if_neg (mt List.contains_iff_mem.mp hn), List.mem_append, List.mem_singleton, or_assoc]

end ConfigObject

namespace Objects

open Relation (TransGen)

variable {os : Objects} {a b : String}

/-- An object lists another one of the same objects as a dependency, plain or enforced. -/
def Lists (os : Objects) (a b : String) : Prop :=
  (∃ o ∈ os.get? a, b ∈ o.stringsAt "dependencies.config" ∨
    b ∈ o.stringsAt "dependencies.enforced.config") ∧ (os.get? b).isSome

instance (os : Objects) : DecidableRel os.Lists := fun _ _ => instDecidableAnd

/-! ### What is needed -/

theorem exists_needs_iff : (∃ required, needs os a = .ok (some required)) ↔ (os.get? a).isSome := by
  rw [needs]
  cases os.get? a <;> simp

theorem lists_iff : os.Lists a b ↔ Postorder.Needs (needs os) a b ∧ (os.get? b).isSome := by
  have hmem : ∀ l : List String, b ∈ Storage.sortNames l ↔ b ∈ l := fun l =>
    (List.mergeSort_perm l _).mem_iff
  rw [Lists, Postorder.Needs, needs]
  cases os.get? a <;> simp [hmem, ConfigObject.mem_dependencies]

/-- Whatever leads to one of the objects does so among them. -/
theorem transGen_lists (ha : (os.get? a).isSome) (h : TransGen (Postorder.Needs (needs os)) b a) :
    TransGen os.Lists b a := by
  induction h using TransGen.head_induction_on with
  | single hstep => exact .single (lists_iff.mpr ⟨hstep, ha⟩)
  | head hstep _ ih =>
    obtain ⟨_, hnext, -⟩ := TransGen.head'_iff.mp ih
    obtain ⟨⟨o, ho, -⟩, -⟩ := hnext
    exact .head (lists_iff.mpr ⟨hstep, Option.isSome_of_mem ho⟩) ih

/-! ### The order -/

theorem ordered_visitAll {order : List String}
    (h : Postorder.visitAll (needs os) (os.size + 1) os.names = .ok order) :
    Postorder.Ordered (needs os) order := by
  have hknown : ∀ x, (∃ required, needs os x = .ok (some required)) → x ∈ os.names := fun x hx =>
    (NameMap.mem_names_iff ..).mpr (exists_needs_iff.mp hx)
  have hlength : os.names.length = os.size := List.length_map ..
  exact Postorder.ordered_of_visitAll hknown (by omega) h

theorem nodup_dependencyOrder (os : Objects) : os.dependencyOrder.Nodup := by
  rw [dependencyOrder]
  split
  rename_i order horder
  exact (ordered_visitAll horder).nodup

/-- What an object lists comes before it, unless that leads back to it. -/
theorem exists_before (h : os.Lists a b) (hback : ¬TransGen os.Lists b a) :
    ∃ before after, os.dependencyOrder = before ++ a :: after ∧ b ∈ before := by
  obtain ⟨⟨o, ho, -⟩, hb⟩ := id h
  have ha : (os.get? a).isSome := Option.isSome_of_mem ho
  obtain ⟨before, after, horder⟩ := List.append_of_mem (mem_dependencyOrder.mpr ha)
  refine ⟨before, after, horder, ?_⟩
  rw [dependencyOrder] at horder
  split at horder
  rename_i order hvisit
  have hneeds := (ordered_visitAll hvisit).needsFirst before a after horder
  refine (hneeds b (lists_iff.mp h).1 (exists_needs_iff.mpr hb)).resolve_right fun hleads => ?_
  exact hback (transGen_lists ha hleads)

/-- The order of objects has each name once, and no other. An object comes after each one it lists
that does not reach it in turn. -/
theorem ordered_dependencyOrder (os : Objects) :
    os.dependencyOrder.Nodup ∧ (∀ name, name ∈ os.dependencyOrder ↔ (os.get? name).isSome) ∧
    ∀ a b, os.Lists a b → ¬TransGen os.Lists b a →
      ∃ before after, os.dependencyOrder = before ++ a :: after ∧ b ∈ before :=
  ⟨nodup_dependencyOrder os, fun _ => mem_dependencyOrder, fun _ _ => exists_before⟩

/-! ### An instance -/

/-- An object that lists some names as dependencies and enforces others. -/
def listing (listed enforced : List String) : ConfigObject :=
  Mapping.ofNames [("dependencies", (Mapping.ofNames [
    ("config", .seq (listed.map .string)),
    ("enforced", (Mapping.ofNames [("config", .seq (enforced.map .string))]).toValue)]).toValue)]

/-- A circle of two objects. One of them also lists itself, an object without dependencies and a
name that is not there; a third object enforces it twice. -/
def entangled : Objects := NameMap.ofList [
  ("a.page", listing [] ["b.round", "b.round"]),
  ("b.round", listing ["b.round", "c.again", "d.base", "x.elsewhere"] []),
  ("c.again", listing ["b.round"] []),
  ("d.base", Mapping.empty)]

theorem not_lists_base (b : String) : ¬entangled.Lists "d.base" b := by
  rintro ⟨⟨o, ho, hlisted⟩, -⟩
  have hbase : entangled.get? "d.base" = some Mapping.empty := rfl
  rw [hbase, Option.mem_some_iff] at ho
  subst ho
  rcases hlisted with hlisted | hlisted <;> cases hlisted

theorem ordered_beside_round :
    entangled.dependencyOrder = ["c.again", "d.base", "b.round", "a.page"] ∧
    entangled.Lists "b.round" "d.base" ∧ ¬TransGen entangled.Lists "d.base" "b.round" ∧
    (∃ before after, entangled.dependencyOrder = before ++ "b.round" :: after ∧
      "d.base" ∈ before) ∧
    entangled.Lists "c.again" "b.round" ∧ TransGen entangled.Lists "b.round" "c.again" := by
  have hlists : entangled.Lists "b.round" "d.base" := by decide +kernel
  have hback : ¬TransGen entangled.Lists "d.base" "b.round" := by
    intro h
    obtain ⟨b, hb, -⟩ := TransGen.head'_iff.mp h
    exact not_lists_base b hb
  obtain ⟨-, -, hbefore⟩ := ordered_dependencyOrder entangled
  refine ⟨by cbv, hlists, hback, hbefore _ _ hlists hback, by decide +kernel, .single ?_⟩
  decide +kernel

end Objects

end Cookbook
