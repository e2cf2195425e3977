import Cookbook.Proofs.Except
import Cookbook.Proofs.NeedsFirst
import Cookbook.Recipe.Order
import Mathlib.Data.List.Chain

/-!
# Orders of recipes

Names are visited depth first. The way down has names that list each other, all different; so a name
met on it again closes a circle, and a way is no longer than there are names that list others. A
visit that does not fail leaves an order that has the name, in which everything stands after what it
lists, and that has grown by nothing on the way down. The last is why the name itself can be put at
the end: no visit below it has listed it.

How a visit fails does not depend on what is listed already, so failures and successes are followed
apart.

## Main definitions

* `RecipeOrder.Lists`: a name lists another.
* `RecipeOrder.IsCircle`: names in a row, each listing the next, that come back to the first.
* `RecipeOrder.IsWay`: the way down to a name.
* `RecipeOrder.Ordered`: an order that may grow.

## Main results

* `RecipeOrder.failsAs_visit`: a visit fails only at a circle.
* `RecipeOrder.ordered_of_visit`: what a visit lists.
* `RecipeOrder.exists_order_iff`: there is an order just if there is no circle.
-/

namespace Cookbook

namespace RecipeOrder

open Relation (ReflTransGen TransGen)

variable {deps : String → List String} {known : List String} {root id : String}
  {path order order' : List String}

/-- A name lists another. -/
def Lists (deps : String → List String) (a b : String) : Prop := b ∈ deps a

/-! ### Circles -/

/-- Names in a row, each of which lists the next. The first is also the last, and no other is there
twice. -/
def IsCircle (deps : String → List String) (cycle : List String) : Prop :=
  ∃ id rest, cycle = id :: (rest ++ [id]) ∧ (id :: rest).Nodup ∧ cycle.IsChain (Lists deps)

theorem IsCircle.exists_transGen {cycle : List String} (h : IsCircle deps cycle) :
    ∃ id ∈ cycle, TransGen (Lists deps) id id := by
  obtain ⟨id, rest, rfl, -, hchain⟩ := h
  refine ⟨id, List.mem_cons_self .., ?_⟩
  cases rest with
  | nil => exact .single (List.isChain_pair.mp hchain)
  | cons next rest =>
    rw [List.cons_append, List.isChain_cons_cons] at hchain
    refine TransGen.head' hchain.1 ?_
    exact List.relationReflTransGen_of_exists_isChain_cons (rest ++ [id]) hchain.2 (by simp)

/-! ### The way down -/

/-- The way down from the root to a name: names that all list others, each of which lists the
next. -/
structure IsWay (deps : String → List String) (root : String) (path : List String) (id : String) :
    Prop where
  nodup : path.Nodup
  chain : (path ++ [id]).IsChain (Lists deps)
  /-- Everything on the way is needed for the root. -/
  reached : ∀ x ∈ path ++ [id], ReflTransGen (Lists deps) root x

namespace IsWay

theorem start (root : String) : IsWay deps root [] root where
  nodup := List.nodup_nil
  chain := List.isChain_singleton root
  reached x hx := by rw [List.mem_singleton.mp hx]

/-- The way goes on to what a name lists, unless the name is on it. -/
theorem down (h : IsWay deps root path id) (hid : id ∉ path) {next : String}
    (hnext : next ∈ deps id) : IsWay deps root (path ++ [id]) next where
  nodup := by
    refine List.nodup_append.mpr ⟨h.nodup, List.nodup_singleton id, fun x hx y hy => ?_⟩
    rw [List.mem_singleton.mp hy]
    rintro rfl
    exact hid hx
  chain := by
    refine h.chain.append (List.isChain_singleton next) fun x hx y hy => ?_
    rw [List.getLast?_concat, Option.mem_some_iff] at hx
    rw [List.head?_cons, Option.mem_some_iff] at hy
    rw [← hx, ← hy]
    exact hnext
  reached x hx := by
    rcases List.mem_append.mp hx with hx | hx
    · exact h.reached x hx
    · rw [List.mem_singleton.mp hx]
      exact (h.reached id List.mem_concat_self).tail hnext

/-- A name on the way closes a circle. -/
theorem isCircle (h : IsWay deps root path id) (hid : id ∈ path) :
    IsCircle deps (circle path id) ∧
      ∀ x ∈ circle path id, ReflTransGen (Lists deps) root x := by
  obtain ⟨above, rest, rfl, habove⟩ := List.eq_append_cons_of_mem hid
  have hdrop : ∀ x ∈ above, (x != id) = true := by
    intro x hx
    rw [bne_iff_ne]
    rintro rfl
    exact habove hx
  have hcircle : circle (above ++ id :: rest) id = id :: (rest ++ [id]) := by
    rw [circle, List.dropWhile_append_of_pos hdrop]
    simp
  have hsuffix : id :: (rest ++ [id]) <:+ above ++ id :: rest ++ [id] := ⟨above, by simp⟩
  rw [hcircle]
  refine ⟨⟨id, rest, rfl, ?_, h.chain.suffix hsuffix⟩, fun x hx => h.reached x (hsuffix.subset hx)⟩
  exact (List.nodup_append.mp h.nodup).2.1

end IsWay

/-! ### Visits -/

section Visit

variable {needs : String → Except Error (List String)} {fuel : Nat}

/-- A name that is new is listed after what it needs. -/
theorem visit_of_needs {required : List String} (hpath : id ∉ path) (horder : id ∉ order)
    (hneeds : needs id = .ok required) : visit needs (fuel + 1) path order id = (do
      let below ← required.foldlM (visit needs fuel (path ++ [id])) order
      return below ++ [id]) := by
  rw [visit, if_neg (by simpa using hpath), if_neg (by simpa using horder), hneeds]
  rfl

theorem visit_of_new (hpath : id ∉ path) (horder : id ∉ order) :
    visit (fun x => .ok (deps x)) (fuel + 1) path order id = (do
      let below ← (deps id).foldlM (visit (fun x => .ok (deps x)) fuel (path ++ [id])) order
      return below ++ [id]) :=
  visit_of_needs hpath horder rfl

theorem visit_of_mem_path (hpath : id ∈ path) : visit needs (fuel + 1) path order id
    = .error (.circularDependency (circle path id)) := by
  rw [visit, if_pos (by simpa using hpath)]

theorem visit_of_mem_order (hpath : id ∉ path) (horder : id ∈ order) :
    visit needs (fuel + 1) path order id = .ok order := by
  rw [visit, if_neg (by simpa using hpath), if_pos (by simpa using horder)]

end Visit

/-- A visit fails only at a circle. -/
theorem failsAs_visit (fuel : Nat) (h : IsWay deps root path id) (order : List String) :
    Except.FailsAs (fun e => ∃ cycle, e = .circularDependency cycle ∧ IsCircle deps cycle ∧
      ∀ x ∈ cycle, ReflTransGen (Lists deps) root x)
      (visit (fun x => .ok (deps x)) fuel path order id) := by
  induction fuel generalizing path id order with
  | zero => exact Except.FailsAs.ok order
  | succ fuel ih =>
    by_cases hpath : id ∈ path
    · rw [visit_of_mem_path hpath]
      exact Except.FailsAs.error ⟨_, rfl, h.isCircle hpath⟩
    by_cases horder : id ∈ order
    · rw [visit_of_mem_order hpath horder]
      exact Except.FailsAs.ok order
    · rw [visit_of_new hpath horder]
      refine (Except.FailsAs.foldlM (fun order next hnext => ?_) order).bind fun below => ?_
      · exact ih (h.down hpath hnext) order
      · exact Except.FailsAs.ok _

/-! ### Orders -/

/-- An order on the way to a complete one: each name once, after all that it lists, and only names
that are needed for the root. -/
structure Ordered (deps : String → List String) (root : String) (order : List String) : Prop where
  nodup : order.Nodup
  needsFirst : NeedsFirst (Lists deps) order
  reached : ∀ x ∈ order, ReflTransGen (Lists deps) root x

theorem Ordered.nil (root : String) : Ordered deps root [] where
  nodup := List.nodup_nil
  needsFirst := EachAfter.nil
  reached x hx := by cases hx

/-- A name comes last when all that it lists is there. -/
theorem Ordered.concat (h : Ordered deps root order) (hid : id ∉ order)
    (hdeps : ∀ x ∈ deps id, x ∈ order) (hreached : ReflTransGen (Lists deps) root id) :
    Ordered deps root (order ++ [id]) where
  nodup := by
    refine List.nodup_append.mpr ⟨h.nodup, List.nodup_singleton id, fun x hx y hy => ?_⟩
    rw [List.mem_singleton.mp hy]
    rintro rfl
    exact hid hx
  needsFirst := h.needsFirst.concat hdeps
  reached x hx := by
    rcases List.mem_append.mp hx with hx | hx
    · exact h.reached x hx
    · rwa [List.mem_singleton.mp hx]

/-- One order comes after another in visits below a way: nothing is lost, and nothing on the way is
added. -/
def Grows (path order order' : List String) : Prop :=
  order ⊆ order' ∧ ∀ x ∈ order', x ∈ order ∨ x ∉ path

/-- What a visit lists that has fuel for every way that is left. -/
theorem ordered_of_visit
    (hknown : ∀ x, ReflTransGen (Lists deps) root x → deps x ≠ [] → x ∈ known) {fuel : Nat}
    (hfuel : known.length + 2 ≤ fuel + path.length) (h : IsWay deps root path id)
    (hpath : path ⊆ known) (horder : Ordered deps root order)
    (hvisit : visit (fun x => .ok (deps x)) fuel path order id = .ok order') :
    Ordered deps root order' ∧ id ∈ order' ∧ Grows path order order' := by
  induction fuel generalizing path id order order' with
  | zero =>
    have hlength : path.length ≤ known.length := h.nodup.length_le_of_subset hpath
    omega
  | succ fuel ih =>
    by_cases hid : id ∈ path
    · rw [visit_of_mem_path hid] at hvisit
      cases hvisit
    by_cases hlisted : id ∈ order
    · rw [visit_of_mem_order hid hlisted] at hvisit
      cases hvisit
      exact ⟨horder, hlisted, List.Subset.refl order, fun _ => .inl⟩
    have hreached : ReflTransGen (Lists deps) root id := h.reached id List.mem_concat_self
    rw [visit_of_new hid hlisted] at hvisit
    obtain ⟨below, hbelow, hvisit⟩ := Except.bind_eq_ok_iff.mp hvisit
    cases hvisit
    -- Every step keeps the order, grows it by nothing on the way, and brings what it visits.
    have hstep : ∀ order₁, Ordered deps root order₁ ∧ Grows (path ++ [id]) order order₁ →
        ∀ next ∈ deps id, ∀ order₂,
          visit (fun x => .ok (deps x)) fuel (path ++ [id]) order₁ next = .ok order₂ →
          (Ordered deps root order₂ ∧ Grows (path ++ [id]) order order₂) ∧ next ∈ order₂ ∧
            ∀ x, x ∈ order₁ → x ∈ order₂ := by
      rintro order₁ ⟨hordered, hgrows⟩ next hnext order₂ hvisit
      have hfuel' : known.length + 2 ≤ fuel + (path ++ [id]).length := by
        rw [List.length_append, List.length_singleton]
        omega
      have hpath' : path ++ [id] ⊆ known := by
        intro x hx
        rcases List.mem_append.mp hx with hx | hx
        · exact hpath hx
        · rw [List.mem_singleton.mp hx]
          exact hknown id hreached (List.ne_nil_of_mem hnext)
      obtain ⟨hordered', hmem, hgrows'⟩ :=
        ih hfuel' (h.down hid hnext) hpath' hordered hvisit
      refine ⟨⟨hordered', List.Subset.trans hgrows.1 hgrows'.1, fun x hx => ?_⟩, hmem,
        fun x hx => hgrows'.1 hx⟩
      rcases hgrows'.2 x hx with hx | hx
      · exact hgrows.2 x hx
      · exact .inr hx
    have hstart : Grows (path ++ [id]) order order := ⟨List.Subset.refl order, fun _ => .inl⟩
    obtain ⟨⟨hordered, hgrows⟩, hdeps, -⟩ := Except.foldlM_brings hstep ⟨horder, hstart⟩ hbelow
    have hnew : id ∉ below := by
      intro hmem
      rcases hgrows.2 id hmem with hmem | hmem
      · exact hlisted hmem
      · exact hmem List.mem_concat_self
    refine ⟨hordered.concat hnew hdeps hreached, List.mem_concat_self,
      List.Subset.trans hgrows.1 (List.subset_append_left ..), fun x hx => ?_⟩
    rcases List.mem_append.mp hx with hx | hx
    · refine (hgrows.2 x hx).imp_right fun hout hmem => hout (List.mem_append_left _ hmem)
    · rw [List.mem_singleton.mp hx]
      exact .inr hid

/-! ### The order of a recipe -/

/-- An order that is complete: the root is its last name. -/
theorem ordered_of_order
    (hknown : ∀ x, ReflTransGen (Lists deps) root x → deps x ≠ [] → x ∈ known)
    (h : RecipeOrder.order known (fun x => .ok (deps x)) root = .ok order) :
    Ordered deps root order ∧ root ∈ order ∧ order.getLast? = some root := by
  have hvisit : visit (fun x => .ok (deps x)) (known.length + 1 + 1) [] [] root = .ok order := h
  obtain ⟨hordered, hroot, -⟩ := ordered_of_visit hknown (Nat.le_refl _) (IsWay.start root)
    (List.nil_subset known) (Ordered.nil root) hvisit
  refine ⟨hordered, hroot, ?_⟩
  rw [visit_of_new List.not_mem_nil List.not_mem_nil] at hvisit
  obtain ⟨below, -, hvisit⟩ := Except.bind_eq_ok_iff.mp hvisit
  cases hvisit
  exact List.getLast?_concat

theorem failsAs_order (known : List String) (root : String) :
    Except.FailsAs (fun e => ∃ cycle, e = .circularDependency cycle ∧ IsCircle deps cycle ∧
      ∀ x ∈ cycle, ReflTransGen (Lists deps) root x)
      (RecipeOrder.order known (fun x => .ok (deps x)) root) :=
  failsAs_visit _ (IsWay.start root) []

/-- There is an order just if nothing that is needed leads back to itself. It has each name that is
needed once, after all that the name lists, and the root last. Otherwise the failure tells such a
circle. -/
theorem exists_order_iff
    (hknown : ∀ x, ReflTransGen (Lists deps) root x → deps x ≠ [] → x ∈ known) :
    ((∃ order, RecipeOrder.order known (fun x => .ok (deps x)) root = .ok order) ↔
      ¬∃ x, ReflTransGen (Lists deps) root x ∧ TransGen (Lists deps) x x) ∧
    (∀ order, RecipeOrder.order known (fun x => .ok (deps x)) root = .ok order →
      order.Nodup ∧ (∀ x, x ∈ order ↔ ReflTransGen (Lists deps) root x) ∧
      (∀ before x after, order = before ++ x :: after → deps x ⊆ before) ∧
      order.getLast? = some root) ∧
    (∀ e, RecipeOrder.order known (fun x => .ok (deps x)) root = .error e →
      ∃ cycle, e = .circularDependency cycle ∧
        e.message = "Circular recipe dependency detected: " ++ " -> ".intercalate cycle ∧
        IsCircle deps cycle) := by
  refine ⟨⟨?_, fun hnone => ?_⟩, fun order horder => ?_, fun e he => ?_⟩
  · rintro ⟨order, horder⟩ ⟨x, hx, hcircle⟩
    obtain ⟨hordered, hroot, -⟩ := ordered_of_order hknown horder
    have hmem : x ∈ order := hordered.needsFirst.mem_of_reach hroot hx
    exact hordered.needsFirst.not_circle hordered.nodup hmem hcircle
  · cases horder : RecipeOrder.order known (fun x => .ok (deps x)) root with
    | ok order => exact ⟨order, rfl⟩
    | error e =>
      obtain ⟨cycle, -, hcycle, hreached⟩ := failsAs_order known root e horder
      obtain ⟨x, hx, hcircle⟩ := hcycle.exists_transGen
      exact absurd ⟨x, hreached x hx, hcircle⟩ hnone
  · obtain ⟨hordered, hroot, hlast⟩ := ordered_of_order hknown horder
    refine ⟨hordered.nodup, fun x => ⟨hordered.reached x, hordered.needsFirst.mem_of_reach hroot⟩,
      fun before x after heq y hy => hordered.needsFirst before x after heq y hy, hlast⟩
  · obtain ⟨cycle, rfl, hcycle, -⟩ := failsAs_order known root e he
    exact ⟨cycle, rfl, rfl, hcycle⟩

/-! ### An instance -/

/-- A recipe with two that share a third, and a recipe that leads back to itself beside them. -/
def sharing : String → List String
  | "top" => ["left", "right"]
  | "left" => ["base"]
  | "right" => ["base"]
  | "round" => ["left", "again"]
  | "again" => ["round"]
  | _ => []

theorem mem_of_sharing {x : String} (h : sharing x ≠ []) :
    x ∈ ["top", "left", "right", "round", "again"] := by
  unfold sharing at h
  split at h <;> simp_all

theorem ordered_beside_circle :
    (∃ order, RecipeOrder.order ["top", "left", "right", "round", "again"]
        (fun x => .ok (sharing x)) "top" = .ok order ∧ order = ["base", "left", "right", "top"] ∧
      ∀ x, x ∈ order ↔ ReflTransGen (Lists sharing) "top" x) ∧
    ∃ cycle, RecipeOrder.order ["top", "left", "right", "round", "again"]
        (fun x => .ok (sharing x)) "round" = .error (.circularDependency cycle) ∧
      cycle = ["round", "again", "round"] ∧ IsCircle sharing cycle := by
  have hknown : ∀ root x, ReflTransGen (Lists sharing) root x → sharing x ≠ [] →
      x ∈ ["top", "left", "right", "round", "again"] := fun _ _ _ => mem_of_sharing
  obtain ⟨-, hok, -⟩ := exists_order_iff (hknown "top")
  obtain ⟨-, -, herror⟩ := exists_order_iff (hknown "round")
  refine ⟨⟨_, rfl, rfl, (hok _ rfl).2.1⟩, ?_⟩
  obtain ⟨cycle, heq, -, hcycle⟩ := herror _ rfl
  cases heq
  exact ⟨_, rfl, rfl, hcycle⟩

end RecipeOrder

end Cookbook
