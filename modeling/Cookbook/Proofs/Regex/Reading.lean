import Cookbook.Regex.Parser

/-!
# Reading the notation of regular expressions

The notation is read from the front: an atom, the repetitions after it, and the rest of the
sequence. What is read depends on flags, of which none is set here. Then white space counts, sets
are taken as they are written, and characters with a meaning of their own stand for themselves when
they are escaped.

## Main definitions

* `Regex.NoRepetition`: no repetition is written here.
* `Regex.BeginsAtom`: a sequence goes on here with an atom.

## Main results

* `Regex.atom?_of_isMeta`, `Regex.atom?_of_not_isMeta`: characters that stand for themselves.
* `Regex.setBody?_chars`: characters in a set.
* `Regex.sequence?_atom`: an atom with its repetitions in front of a sequence.
-/

namespace Cookbook

namespace CharClass

theorem has_single (c d : Char) : (single c).has d = true ↔ d = c := by
  rw [single, has, Bool.and_eq_true, decide_eq_true_eq, decide_eq_true_eq]
  constructor
  · rintro ⟨h, h'⟩
    exact Char.toNat_inj.mp (Nat.le_antisymm h' h)
  · rintro rfl
    exact ⟨Nat.le_refl _, Nat.le_refl _⟩

/-- A set to which characters are added. -/
theorem has_foldl_union (cs : List Char) (s : CharClass) (d : Char) :
    (cs.foldl (fun s c => union s (single c)) s).has d = true ↔ s.has d = true ∨ d ∈ cs := by
  induction cs generalizing s with
  | nil => simp
  | cons c cs ih =>
    rw [List.foldl_cons, ih, has, Bool.or_eq_true, has_single, List.mem_cons, or_assoc]

end CharClass

namespace Regex

variable {c : Char} {cs rest after : List Char} {r r' : Regex}

theorem skip_plain (n : Nat) (cs : List Char) : skip {} n cs = cs := by
  cases n <;> rfl

/-! ### Repetitions -/

/-- No repetition is written here. -/
def NoRepetition (cs : List Char) : Prop := ∀ c ∈ cs.head?, c ∉ ['*', '+', '?', '\x7b']

theorem repeated?_of_noRepetition (h : NoRepetition cs) (fuel : Nat) (r : Regex) :
    repeated? {} (fuel + 1) r cs = some (r, cs) := by
  rw [repeated?, skip_plain]
  split
  · exact absurd (h '*' rfl) (by decide)
  · exact absurd (h '+' rfl) (by decide)
  · exact absurd (h '?' rfl) (by decide)
  · exact absurd (h '\x7b' rfl) (by decide)
  · rfl

/-- Once or more. -/
theorem repeated?_plus (h : NoRepetition cs) (fuel : Nat) (r : Regex) :
    repeated? {} (fuel + 2) r ('+' :: cs) = some (.both r (.star r), cs) := by
  have hlazy : dropLazy cs = cs := by
    rw [dropLazy]
    rintro _ rfl
    exact absurd (h '?' rfl) (by decide)
  rw [repeated?, skip_plain]
  simp only [hlazy]
  exact repeated?_of_noRepetition h fuel _

/-! ### Characters -/

theorem escape?_of_isMeta (h : isMeta c = true) (rest : List Char) :
    escape? {} (c :: rest) = some (.char c, rest) := by
  simp only [isMeta, List.mem_cons, List.not_mem_nil, or_false, decide_eq_true_eq] at h
  rcases h with rfl | rfl | rfl | rfl | rfl | rfl | rfl | rfl | rfl | rfl | rfl | rfl | rfl | rfl |
    rfl | rfl | rfl | rfl
  all_goals rfl

theorem ne_of_not_isMeta {d : Char} (h : isMeta c = false) (hd : isMeta d = true) : c ≠ d := by
  rintro rfl
  exact Bool.false_ne_true (h.symm.trans hd)

/-- An escaped character stands for itself. -/
theorem atom?_of_isMeta (h : isMeta c = true) (rest : List Char) :
    sequence?.atom? {} ('\\' :: c :: rest) = some (.one (.single c), rest) := by
  rw [sequence?.atom?, escape?_of_isMeta h]
  rfl

/-- A character without another meaning stands for itself. -/
theorem atom?_of_not_isMeta (h : isMeta c = false) (rest : List Char) :
    sequence?.atom? {} (c :: rest) = some (.one (.single c), rest) := by
  have hplain : ['*', '+', '?', '\x7b'].contains c = false := by
    have hstar := ne_of_not_isMeta (d := '*') h rfl
    have hplus := ne_of_not_isMeta (d := '+') h rfl
    have hoption := ne_of_not_isMeta (d := '?') h rfl
    have hbrace := ne_of_not_isMeta (d := '\x7b') h rfl
    simp [hstar, hplus, hoption, hbrace]
  rw [sequence?.atom?]
  · rw [hplain]
    rfl
  all_goals
    rintro rfl
    exact Bool.false_ne_true h.symm

/-! ### Sets -/

theorem setRange?_char {d : Char} (hc : c ≠ '\\') (hd : d ≠ '-') (rest : List Char) :
    setRange? {} (c :: d :: rest) = some (.single c, d :: rest) := by
  have hitem : setItem? {} (c :: d :: rest) = some (.char c, d :: rest) := by
    rw [setItem?]
    exact hc
  rw [setRange?, hitem]
  simp only [Option.bind_eq_bind, Option.bind_some, skip_plain]
  split
  · rename_i heq
    cases heq
  · rename_i heq
    exact absurd (List.cons.inj heq).1 hd
  · rfl

theorem setBody?_range {t : CharClass} (hc : c ∉ ['&', '-', '~', ']', '['])
    (hrange : setRange? {} (c :: cs) = some (t, rest)) (fuel : Nat) (s : CharClass) :
    setBody? {} (fuel + 1) none s (c :: cs) = setBody? {} fuel none (.union s t) rest := by
  have hoperator : setOperator? (c :: cs) = none := by
    rw [setOperator?]
    all_goals
      intro _ h
      cases h
      exact absurd hc (by decide)
  rw [setBody?]
  simp only [skip_plain, hoperator]
  split
  · rename_i heq
    cases heq
  · rename_i heq
    cases heq
    exact absurd hc (by decide)
  · rename_i heq
    cases heq
    exact absurd hc (by decide)
  · rw [hrange]
    rfl

/-- Characters of a set are added one after the other. -/
theorem setBody?_chars (hc : c ≠ '-') (fuel : Nat) (rest : List Char)
    (hcs : ∀ d ∈ cs, d ∉ ['\\', '&', '-', '~', ']', '[']) (s : CharClass) :
    setBody? {} (fuel + cs.length) none s (cs ++ c :: rest)
      = setBody? {} fuel none (cs.foldl (fun s c => .union s (.single c)) s) (c :: rest) := by
  induction cs generalizing s with
  | nil => rfl
  | cons d cs ih =>
    obtain ⟨hd, hcs⟩ := List.forall_mem_cons.mp hcs
    obtain ⟨hescape, hplain⟩ := not_or.mp (mt List.mem_cons.mpr hd)
    have hrange : setRange? {} (d :: (cs ++ c :: rest)) = some (.single d, cs ++ c :: rest) := by
      cases cs with
      | nil => exact setRange?_char hescape hc rest
      | cons e cs =>
        refine setRange?_char hescape ?_ _
        rintro rfl
        exact absurd (hcs '-' List.mem_cons_self) (by decide)
    rw [List.cons_append, List.length_cons, ← Nat.add_assoc, setBody?_range hplain hrange, ih hcs,
      List.foldl_cons]

theorem leading_of_plain (h : c ≠ '-') (h' : c ≠ ']') (cs : List Char) :
    leading (c :: cs) = (.none, c :: cs) := by
  have hdrop : (c :: cs).dropWhile (· == '-') = c :: cs :=
    List.dropWhile_cons_of_neg (by simpa using h)
  rw [leading]
  · simp only [hdrop, Nat.lt_irrefl, if_false]
  · rintro _ heq
    exact h' (List.cons.inj heq).1

/-! ### Sequences -/

/-- A sequence goes on here with an atom. -/
def BeginsAtom (cs : List Char) : Prop := ∃ c rest, cs = c :: rest ∧ c ∉ ['|', ')', '(']

/-- An atom with its repetitions stands in front of the rest of a sequence. -/
theorem sequence?_atom (hcs : BeginsAtom cs) (hatom : sequence?.atom? {} cs = some (r, rest))
    (hrepeated : repeated? {} rest.length.succ r rest = some (r', after)) (fuel : Nat) :
    sequence? (fuel + 1) {} cs = (sequence? fuel {} after).map fun x => (.both r' x.1, x.2) := by
  obtain ⟨c, more, rfl, hc⟩ := hcs
  rw [sequence?, skip_plain]
  split
  · rename_i heq
    cases heq
  · rename_i heq
    cases heq
    exact absurd hc (by decide)
  · rename_i heq
    cases heq
    exact absurd hc (by decide)
  · rename_i heq
    cases heq
    exact absurd hc (by decide)
  · rw [hatom]
    simp only [Option.bind_eq_bind, Option.bind_some, hrepeated]
    cases sequence? fuel {} after <;> rfl

end Regex

end Cookbook
