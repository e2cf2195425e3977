import Cookbook.Text.Number
import Mathlib.Data.String.Basic

/-!
# Numbers in decimal digits

A number is written in digits without zeros in front, and read as the number again. So the texts of
numbers tell them apart, and how long they are is known from how large the numbers are.

## Main results

* `Text.foldl_toDigits`, `Text.number64?_toString`: numbers are read as they are written.
* `Text.utf8ByteSize_toString_le`: how long the text of a number of 64 bits is.
-/

namespace Cookbook

namespace Text

variable {n : Nat}

theorem isDigit_of_mem_toDigits {c : Char} (h : c ∈ Nat.toDigits 10 n) : c.isDigit = true :=
  Nat.isDigit_of_mem_toDigits (by decide) (by decide) h

theorem exists_toDigits_eq_cons (n : Nat) :
    ∃ d ds, Nat.toDigits 10 n = d :: ds ∧ d.isDigit = true := by
  obtain ⟨d, ds, hds⟩ := List.exists_cons_of_ne_nil (Nat.toDigits_ne_nil (n := n) (b := 10))
  refine ⟨d, ds, hds, isDigit_of_mem_toDigits (n := n) ?_⟩
  rw [hds]
  exact List.mem_cons_self

/-- Only zero has a zero in front. -/
theorem head?_toDigits (h : 0 < n) : (Nat.toDigits 10 n).head? ≠ some '0' := by
  induction n using Nat.strongRecOn with
  | _ n ih =>
    by_cases hn : n < 10
    · rw [Nat.toDigits_of_lt_base hn]
      have hall : ∀ n < 10, 0 < n → Nat.digitChar n ≠ '0' := by decide
      simpa using hall n hn h
    · rw [Nat.toDigits_of_base_le (by decide) (by omega), List.head?_append]
      have hfirst := ih (n / 10) (by omega) (by omega)
      cases hdigits : (Nat.toDigits 10 (n / 10)).head? with
      | none => exact absurd (List.head?_eq_none_iff.mp hdigits) Nat.toDigits_ne_nil
      | some c => simpa [hdigits] using hfirst

theorem foldl_toDigits (n : Nat) :
    (Nat.toDigits 10 n).foldl (fun n d => 10 * n + (d.toNat - '0'.toNat)) 0 = n := by
  rw [← Nat.ofDigitChars_eq_foldl, Nat.ofDigitChars_ten_toDigits]

theorem toList_toString (n : Nat) : (toString n).toList = Nat.toDigits 10 n := by
  rw [Nat.toString_eq_ofList_toDigits, String.toList_ofList]

/-- Numbers are read as they are written. -/
theorem number64?_toString (h : n < Nat.pow 2 64) : number64? (toString n) = some n := by
  have hall : (Nat.toDigits 10 n).all Char.isDigit = true :=
    List.all_eq_true.mpr fun _ => isDigit_of_mem_toDigits
  have hsome : (Nat.toDigits 10 n).isEmpty = false :=
    List.isEmpty_eq_false_iff.mpr Nat.toDigits_ne_nil
  rw [number64?, toList_toString]
  split
  · -- a digit is no sign
    rename_i heq
    have := isDigit_of_mem_toDigits (n := n) (heq ▸ List.mem_cons_self ..)
    cases this
  · simp only [hall, hsome, foldl_toDigits, h, if_true]
    rfl

theorem toString_inj {m n : Nat} : toString m = toString n ↔ m = n := by
  refine ⟨fun h => ?_, congrArg toString⟩
  have hdigits := congrArg (fun t => Nat.ofDigitChars 10 t.toList 0) h
  simpa only [toList_toString, Nat.ofDigitChars_ten_toDigits] using hdigits

theorem utf8Len_of_isDigit {ds : List Char} (h : ∀ d ∈ ds, d.isDigit = true) :
    String.utf8Len ds = ds.length := by
  induction ds with
  | nil => rfl
  | cons d ds ih =>
    obtain ⟨hd, hds⟩ := List.forall_mem_cons.mp h
    have hsize : d.utf8Size = 1 := by
      rw [Char.utf8Size_eq_one_iff]
      simp only [Char.isDigit, Bool.and_eq_true, decide_eq_true_eq] at hd
      exact UInt32.le_trans hd.2 (by decide)
    rw [String.utf8Len_cons, ih hds, hsize, List.length_cons]

/-- A number of 64 bits has twenty digits at most. -/
theorem utf8ByteSize_toString_le (h : n < Nat.pow 2 64) : (toString n).utf8ByteSize ≤ 20 := by
  have hdigits : ∀ d ∈ Nat.toDigits 10 n, d.isDigit = true := fun _ => isDigit_of_mem_toDigits
  rw [Nat.toString_eq_ofList_toDigits, String.utf8ByteSize_ofList, utf8Len_of_isDigit hdigits,
    Nat.length_toDigits_le_iff (by decide) (by decide)]
  exact Nat.lt_trans h (by decide)

end Text

end Cookbook
