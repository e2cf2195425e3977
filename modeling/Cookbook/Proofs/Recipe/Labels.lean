import Cookbook.Proofs.Digits
import Cookbook.Recipe.Apply
import Mathlib.Data.List.Nodup
import Mathlib.Data.List.Perm.Subperm

/-!
# The label of the checkpoint before a recipe

The checkpoint before a recipe is labelled with the name of the recipe. If that label is in use, as
it is when the recipe was applied before, numbers are put behind it, from 2 up, until the label is
free.

A log has no more labels than checkpoints, whatever its labels look like. One of them is the label
without a number, so among as many numbers as there are checkpoints one is free.

## Main definitions

* `CheckpointLog.backupBase`, `CheckpointLog.numberedLabel`: the label without and with a number.
* `CheckpointLog.Tries`: trying numbers until a label is free.
* `CheckpointLog.IsBackupLabel`: the label that is to be chosen.

## Main results

* `CheckpointLog.exists_free`: there is a free label among the first ones.
* `CheckpointLog.isBackupLabel_backupLabel`: it is the one that is chosen.
-/

namespace Cookbook

namespace CheckpointLog

variable {l : CheckpointLog} {base label recipe : String} {i m n : Nat}

/-- The label of the checkpoint before a recipe, without a number. -/
def backupBase (recipe : String) : String := "Backup before the '" ++ recipe ++ "' recipe."

/-- A label with a number behind it. -/
def numberedLabel (base : String) (n : Nat) : String := base ++ " (" ++ toString n ++ ")"

/-- Numbers are tried, from one of them up, until the label with the number is free: how many are
tried, and the label. -/
inductive Tries (l : CheckpointLog) (base : String) : Nat → Nat → String → Prop where
  | free {n : Nat} (h : l.hasLabel (numberedLabel base n) = false) :
    Tries l base n 1 (numberedLabel base n)
  | next {n tried : Nat} {label : String} (h : l.hasLabel (numberedLabel base n) = true)
    (hrest : Tries l base (n + 1) tried label) : Tries l base n (tried + 1) label

/-- A label is the one for the checkpoint before a recipe: it is free, and it has the smallest
number with which it is, or none if none is needed. No more numbers are tried than there are
checkpoints. -/
structure IsBackupLabel (l : CheckpointLog) (recipe label : String) : Prop where
  /-- It is not in use. -/
  free : l.hasLabel label = false
  /-- If it is not in use without a number, it has none. -/
  plain : l.hasLabel (backupBase recipe) = false → label = backupBase recipe
  /-- If it is, numbers are tried. -/
  numbered : l.hasLabel (backupBase recipe) = true → ∃ tried ≤ l.entries.length,
    l.Tries (backupBase recipe) 2 tried label ∧
      label = numberedLabel (backupBase recipe) (tried + 1) ∧
      ∀ n, 2 ≤ n → n ≤ tried → l.hasLabel (numberedLabel (backupBase recipe) n) = true
  /-- The number is at most one more than there are checkpoints, so 32 bits with a sign are enough
  for it as long as there are fewer than 2³¹ - 1 of them. -/
  small : ∀ n, label = numberedLabel (backupBase recipe) n → n ≤ l.entries.length + 1 ∧
    (l.entries.length + 1 < Nat.pow 2 31 → n < Nat.pow 2 31)

/-! ### Labels with numbers -/

theorem numberedLabel_inj : numberedLabel base m = numberedLabel base n ↔ m = n := by
  constructor
  · intro h
    refine Text.toString_inj.mp ?_
    simpa [numberedLabel, ← String.toList_inj, String.toList_append] using h
  · rintro rfl
    rfl

theorem ne_numberedLabel (base : String) (n : Nat) : base ≠ numberedLabel base n := by
  intro h
  have hlength := congrArg String.length h
  simp only [numberedLabel, String.length_append] at hlength
  have hopen : " (".length = 2 := rfl
  omega

theorem hasLabel_iff : l.hasLabel label = true ↔ label ∈ l.entries.map (·.label) := by
  simp [hasLabel]

/-- If a label is in use, it is free with one of the numbers from 2 up, and there is no need to try
more of them than there are checkpoints. -/
theorem exists_free (hbase : l.hasLabel base = true) :
    ∃ i < l.entries.length, l.hasLabel (numberedLabel base (i + 2)) = false := by
  by_contra hnone
  have hused : ∀ i < l.entries.length, l.hasLabel (numberedLabel base (i + 2)) = true := by
    intro i hi
    by_contra hfree
    exact hnone ⟨i, hi, Bool.eq_false_iff.mpr hfree⟩
  have hinjective : Function.Injective fun i => numberedLabel base (i + 2) :=
    fun i j hij => Nat.add_right_cancel (numberedLabel_inj.mp hij)
  have hnodup : (base :: (List.range l.entries.length).map
      fun i => numberedLabel base (i + 2)).Nodup := by
    refine List.nodup_cons.mpr ⟨fun hmem => ?_, List.Nodup.map hinjective List.nodup_range⟩
    obtain ⟨i, -, hi⟩ := List.mem_map.mp hmem
    exact ne_numberedLabel base _ hi.symm
  have hsub : (base :: (List.range l.entries.length).map fun i => numberedLabel base (i + 2))
      ⊆ l.entries.map (·.label) := by
    refine List.cons_subset.mpr ⟨hasLabel_iff.mp hbase, fun label hlabel => ?_⟩
    obtain ⟨i, hi, rfl⟩ := List.mem_map.mp hlabel
    exact hasLabel_iff.mp (hused i (List.mem_range.mp hi))
  have hle := (hnodup.subperm hsub).length_le
  simp only [List.length_cons, List.length_map, List.length_range] at hle
  omega

/-- Trying ends at the first number with which the label is free. -/
theorem Tries.of_first (hused : ∀ j < i, l.hasLabel (numberedLabel base (n + j)) = true)
    (hfree : l.hasLabel (numberedLabel base (n + i)) = false) :
    Tries l base n (i + 1) (numberedLabel base (n + i)) := by
  induction i generalizing n with
  | zero => exact .free hfree
  | succ i ih =>
    refine .next (hused 0 (Nat.zero_lt_succ i)) ?_
    have hshift : ∀ j, n + (j + 1) = n + 1 + j := fun j => by omega
    rw [hshift i] at hfree ⊢
    refine ih (fun j hj => ?_) hfree
    rw [← hshift j]
    exact hused (j + 1) (Nat.succ_lt_succ hj)

/-! ### The label that is chosen -/

theorem backupLabel_eq (l : CheckpointLog) (recipe : String) : l.backupLabel recipe
    = ((backupBase recipe :: (List.range (l.entries.length + 1)).map
        fun i => numberedLabel (backupBase recipe) (i + 2)).find? (!l.hasLabel ·)).getD
          (backupBase recipe) :=
  rfl

theorem backupLabel_of_free (h : l.hasLabel (backupBase recipe) = false) :
    l.backupLabel recipe = backupBase recipe := by
  rw [backupLabel_eq, List.find?_cons_of_pos (by rw [h]; rfl)]
  rfl

/-- If the label without a number is in use, it is the one with the smallest number from 2 up that
is free. -/
theorem backupLabel_of_used (h : l.hasLabel (backupBase recipe) = true) :
    ∃ i < l.entries.length, l.backupLabel recipe = numberedLabel (backupBase recipe) (i + 2) ∧
      l.hasLabel (numberedLabel (backupBase recipe) (i + 2)) = false ∧
      ∀ j < i, l.hasLabel (numberedLabel (backupBase recipe) (j + 2)) = true := by
  obtain ⟨k, hk, hfree⟩ := exists_free h
  rw [backupLabel_eq, List.find?_cons_of_neg (by simp [h]), List.find?_map]
  cases hfind : (List.range (l.entries.length + 1)).find?
      ((!l.hasLabel ·) ∘ fun i => numberedLabel (backupBase recipe) (i + 2)) with
  | none =>
    have hused := List.find?_eq_none.mp hfind k (List.mem_range.mpr (Nat.lt_succ_of_lt hk))
    simp [hfree] at hused
  | some i =>
    obtain ⟨hi, -, hbefore⟩ := List.find?_range_eq_some.mp hfind
    have hused : ∀ j < i, l.hasLabel (numberedLabel (backupBase recipe) (j + 2)) = true := by
      intro j hj
      simpa using hbefore j hj
    refine ⟨i, ?_, rfl, by simpa using hi, hused⟩
    by_contra hlarge
    rw [hused k (by omega)] at hfree
    cases hfree

/-- The label before a recipe is not in use. -/
theorem hasLabel_backupLabel (l : CheckpointLog) (recipe : String) :
    l.hasLabel (l.backupLabel recipe) = false := by
  cases hbase : l.hasLabel (backupBase recipe) with
  | false => rw [backupLabel_of_free hbase, hbase]
  | true =>
    obtain ⟨i, -, hlabel, hfree, -⟩ := backupLabel_of_used hbase
    rw [hlabel, hfree]

theorem isBackupLabel_backupLabel (l : CheckpointLog) (recipe : String) :
    l.IsBackupLabel recipe (l.backupLabel recipe) where
  free := hasLabel_backupLabel l recipe
  plain := backupLabel_of_free
  numbered hbase := by
    obtain ⟨i, hi, hlabel, hfree, hused⟩ := backupLabel_of_used hbase
    refine ⟨i + 1, hi, ?_, hlabel, fun n hn hni => ?_⟩
    · rw [hlabel, Nat.add_comm i 2]
      refine Tries.of_first (fun j hj => ?_) (Nat.add_comm i 2 ▸ hfree)
      rw [Nat.add_comm 2 j]
      exact hused j hj
    · have hn' : n - 2 + 2 = n := by omega
      exact hn' ▸ hused (n - 2) (by omega)
  small n hn := by
    have hle : n ≤ l.entries.length + 1 := by
      cases hbase : l.hasLabel (backupBase recipe) with
      | false => exact absurd ((backupLabel_of_free hbase).symm.trans hn) (ne_numberedLabel _ n)
      | true =>
        obtain ⟨i, hi, hlabel, -⟩ := backupLabel_of_used hbase
        rw [← numberedLabel_inj.mp (hlabel.symm.trans hn)]
        omega
    exact ⟨hle, Nat.lt_of_le_of_lt hle⟩

end CheckpointLog

end Cookbook
