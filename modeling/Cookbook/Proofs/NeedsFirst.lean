import Mathlib.Data.List.Nodup
import Mathlib.Data.List.Perm.Basic
import Mathlib.Logic.Relation

/-!
# What is needed comes first

A list in which everything stands after all that it needs has with each of its items everything that
the item leads to, and all that stands before the item. So if nothing is in it twice, nothing in it
leads back to itself.

## Main definitions

* `EachAfter`: every item of a list has a property that speaks of the items before it.
* `NeedsFirst`: everything in a list stands after what it needs.

## Main results

* `EachAfter.concat`: one more item has to have the property.
* `NeedsFirst.mem_of_reach`: everything that is led to is there.
* `NeedsFirst.not_circle`: nothing leads back to itself.
* `NeedsFirst.pairwise`, `NeedsFirst.of_pairwise`: nothing is needed by what stands before it.
* `NeedsFirst.partition`: putting items last that no others need.
-/

namespace Cookbook

open Relation (ReflTransGen TransGen)

universe u

variable {α : Type u} {l : List α} {a b : α}

/-- Every item of a list has a property that speaks of the items before it. -/
def EachAfter (P : List α → α → Prop) (l : List α) : Prop :=
  ∀ before a after, l = before ++ a :: after → P before a

namespace EachAfter

variable {P Q : List α → α → Prop}

theorem nil : EachAfter P [] := by
  intro before a after h
  simp at h

theorem concat (h : EachAfter P l) (ha : P l a) : EachAfter P (l ++ [a]) := by
  intro before c after heq
  rcases List.eq_nil_or_concat after with rfl | ⟨after, z, rfl⟩
  · obtain ⟨hl, hc⟩ := List.append_inj' heq rfl
    rw [List.singleton_inj] at hc
    rwa [← hl, ← hc]
  · have hl : l ++ [a] = (before ++ c :: after) ++ [z] := by simpa using heq
    exact h before c after (List.append_inj' hl rfl).1

end EachAfter

/-- Everything in a list stands after all that it needs. -/
def NeedsFirst (R : α → α → Prop) : List α → Prop :=
  EachAfter fun before a => ∀ b, R a b → b ∈ before

namespace NeedsFirst

variable {R : α → α → Prop}

theorem mem (h : NeedsFirst R l) (ha : a ∈ l) (hb : R a b) : b ∈ l := by
  obtain ⟨before, after, rfl⟩ := List.append_of_mem ha
  exact List.mem_append_left _ (h before a after rfl b hb)

/-- Whatever something in the list leads to is in the list. -/
theorem mem_of_reach (h : NeedsFirst R l) (ha : a ∈ l) (hb : ReflTransGen R a b) : b ∈ l := by
  induction hb with
  | refl => exact ha
  | tail _ hstep ih => exact h.mem ih hstep

/-- Whatever something leads to stands before it. -/
theorem mem_before {before after : List α} (h : NeedsFirst R l) (hl : l = before ++ a :: after)
    (hb : TransGen R a b) : b ∈ before := by
  induction hb using TransGen.head_induction_on generalizing before after with
  | single hstep => exact h before _ after hl b hstep
  | head hstep _ ih =>
    obtain ⟨first, rest, rfl⟩ := List.append_of_mem (h before _ after hl _ hstep)
    exact List.mem_append_left _ (ih (by rw [hl, List.append_assoc]; rfl))

theorem not_circle (h : NeedsFirst R l) (hl : l.Nodup) (ha : a ∈ l) : ¬TransGen R a a := by
  intro hcircle
  obtain ⟨before, after, rfl⟩ := List.append_of_mem ha
  have hbefore : a ∈ before := h.mem_before rfl hcircle
  exact (List.nodup_append.mp hl).2.2 a hbefore a (List.mem_cons_self ..) rfl

/-- If nothing is there twice, nothing is needed by what stands before it. -/
theorem pairwise (h : NeedsFirst R l) (hl : l.Nodup) : l.Pairwise fun a b => ¬R a b := by
  rw [List.pairwise_iff_forall_sublist]
  intro a b hab hneeds
  obtain ⟨first, rest, rfl, ha, hb⟩ := List.cons_sublist_iff.mp hab
  obtain ⟨before, after, rfl⟩ := List.append_of_mem ha
  have hbefore : b ∈ before := h before a (after ++ rest) (by simp) b hneeds
  have hrest : b ∈ rest := List.singleton_sublist.mp hb
  exact (List.nodup_append.mp hl).2.2 b (List.mem_append_left _ hbefore) b hrest rfl

/-- What is closed under what is needed, and needs nothing that comes later or is the same, is in
order. -/
theorem of_pairwise (hl : l.Pairwise fun a b => ¬R a b) (hself : ∀ a ∈ l, ¬R a a)
    (hclosed : ∀ a ∈ l, ∀ b, R a b → b ∈ l) : NeedsFirst R l := by
  rintro before a after rfl b hneeds
  have hmem := hclosed a (List.mem_append_right _ (List.mem_cons_self ..)) b hneeds
  rcases List.mem_append.mp hmem with hbefore | hrest
  · exact hbefore
  rcases List.mem_cons.mp hrest with rfl | hafter
  · exact absurd hneeds (hself b hmem)
  · have hlater := (List.pairwise_cons.mp (List.pairwise_append.mp hl).2.1).1 b hafter
    exact absurd hneeds hlater

/-- Everything still stands after what it needs if items are put last that no others need. -/
theorem partition {t : α → Bool} (h : NeedsFirst R l) (hl : l.Nodup)
    (ht : ∀ a ∈ l, t a = false → ∀ b ∈ l, R a b → t b = false) :
    NeedsFirst R (l.filter (!t ·) ++ l.filter t) := by
  have hmem : ∀ a, a ∈ l.filter (!t ·) ++ l.filter t ↔ a ∈ l := fun a =>
    (List.perm_append_comm.trans (List.filter_append_perm t l)).mem_iff
  have hfirst := h.pairwise hl
  refine of_pairwise (List.pairwise_append.mpr ⟨hfirst.filter _, hfirst.filter t, ?_⟩) ?_ ?_
  · intro a ha b hb hneeds
    obtain ⟨ha, hfalse⟩ := List.mem_filter.mp ha
    obtain ⟨hb, htrue⟩ := List.mem_filter.mp hb
    rw [ht a ha ((Bool.not_eq_true' _).mp hfalse) b hb hneeds] at htrue
    cases htrue
  · intro a ha hself
    exact h.not_circle hl ((hmem a).mp ha) (.single hself)
  · intro a ha b hneeds
    rw [hmem] at ha ⊢
    exact h.mem ha hneeds

end NeedsFirst

end Cookbook
