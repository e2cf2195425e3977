import Cookbook.Regex.Basic
import Mathlib.Logic.Relation

/-!
# What regular expressions match

A match of an expression leads from one place in a text to another, and what it may be follows from
the parts of the expression: `Regex.Matches` says so without an order of trying and without a bound.
The places that `Regex.ends` follows at once are exactly those.

Two things have to be seen for that. Places are told apart by the distance from the end alone, which
is enough, since all of them lie on one way through the text. And a repetition goes on only while it
takes characters; steps that take none lead to where they start, so nothing is missed.

## Main definitions

* `Regex.Place.Leads`: a place lies on the way to another.
* `Regex.Matches`: what an expression matches.

## Main results

* `Regex.mem_ends_iff`: where matches may end.
* `Regex.occursIn_iff`: whether a text has a match.
-/

namespace Cookbook

namespace Regex

variable {r s : Regex} {p q o : Place} {ps : List Place} {c : Char} {cs : List Char}

/-! ### Ways through a text -/

namespace Place

/-- From a place the text leads on to another, or to itself. -/
inductive Leads : Place → Place → Prop
  | refl (p : Place) : Leads p p
  | step {before : Option Char} {c : Char} {rest : List Char} {q : Place}
    (h : Leads ⟨some c, rest⟩ q) : Leads ⟨before, c :: rest⟩ q

namespace Leads

theorem length_le (h : p.Leads q) : q.after.length ≤ p.after.length := by
  induction h with
  | refl p => exact Nat.le_refl _
  | step h ih => exact Nat.le_succ_of_le ih

theorem trans (h : o.Leads p) (h' : p.Leads q) : o.Leads q := by
  induction h with
  | refl p => exact h'
  | step h ih => exact .step (ih h')

/-- On the way from a place, the distance from the end tells which place it is. -/
theorem eq_of_length (h : o.Leads p) (h' : o.Leads q) (heq : p.after.length = q.after.length) :
    p = q := by
  induction h with
  | refl p =>
    cases h' with
    | refl => rfl
    | @step before c rest q h' =>
      have hle : q.after.length ≤ rest.length := h'.length_le
      exact absurd (heq ▸ hle) (Nat.not_succ_le_self _)
  | @step before c rest p h ih =>
    cases h' with
    | refl =>
      have hle : p.after.length ≤ rest.length := h.length_le
      exact absurd (heq ▸ hle) (Nat.not_succ_le_self _)
    | step h' => exact ih h' heq

/-- Nothing leads to a start. -/
theorem eq_of_start (h : p.Leads q) (hq : q.before = none) : q = p := by
  induction h with
  | refl p => rfl
  | step h ih =>
    have heq := ih hq
    rw [heq] at hq
    cases hq

end Leads

end Place

theorem mem_distinctPlaces (h : ∀ p ∈ ps, o.Leads p) : q ∈ distinctPlaces ps ↔ q ∈ ps := by
  have hfold : ∀ (ps found : List Place), (∀ p ∈ found ++ ps, o.Leads p) →
      (q ∈ ps.foldl (fun found p => if found.any (fun q => q.after.length == p.after.length)
        then found else found ++ [p]) found ↔ q ∈ found ++ ps) := by
    intro ps
    induction ps with
    | nil => simp
    | cons p ps ih =>
      intro found hfound
      rw [List.foldl_cons]
      split
      · rename_i hany
        -- the place that was found has the same distance, so it is the same place
        obtain ⟨p', hp', hlength⟩ := List.any_eq_true.mp hany
        have heq : p' = p := Place.Leads.eq_of_length (hfound p' (by simp [hp']))
          (hfound p (by simp)) (beq_iff_eq.mp hlength)
        have hsub : ∀ q, q ∈ found ++ p :: ps ↔ q ∈ found ++ ps := by
          intro q
          rw [List.mem_append, List.mem_append, List.mem_cons, ← heq]
          refine ⟨?_, Or.imp_right .inr⟩
          rintro (hq | rfl | hq)
          · exact .inl hq
          · exact .inl hp'
          · exact .inr hq
        rw [ih found fun p' hp' => hfound p' ((hsub p').mpr hp'), hsub]
      · rw [ih (found ++ [p]) (by simpa using hfound)]
        simp
  exact hfold ps [] h

/-! ### Matches -/

/-- What an expression matches: from a place a match may lead to another. -/
inductive Matches : Regex → Place → Place → Prop
  | empty (p : Place) : Matches empty p p
  | one {s : CharClass} {before : Option Char} {c : Char} (h : s.has c = true) (rest : List Char) :
    Matches (one s) ⟨before, c :: rest⟩ ⟨some c, rest⟩
  | anchor {a : Anchor} {p : Place} (h : a.holds p = true) : Matches (anchor a) p p
  | both {r s : Regex} {p q q' : Place} (h : Matches r p q) (h' : Matches s q q') :
    Matches (both r s) p q'
  | left {r s : Regex} {p q : Place} (h : Matches r p q) : Matches (either r s) p q
  | right {r s : Regex} {p q : Place} (h : Matches s p q) : Matches (either r s) p q
  | never {r : Regex} (p : Place) : Matches (star r) p p
  | again {r : Regex} {p q q' : Place} (h : Matches r p q) (h' : Matches (star r) q q') :
    Matches (star r) p q'

theorem Matches.leads (h : r.Matches p q) : p.Leads q := by
  induction h with
  | empty p => exact .refl p
  | one _ rest => exact .step (.refl _)
  | anchor _ => exact .refl _
  | both _ _ ih ih' => exact ih.trans ih'
  | left _ ih => exact ih
  | right _ ih => exact ih
  | never p => exact .refl p
  | again _ _ ih ih' => exact ih.trans ih'

/-- A match that takes characters. -/
def Takes (r : Regex) (p q : Place) : Prop := r.Matches p q ∧ q.after.length < p.after.length

/-- A repetition consists of matches that take characters. -/
theorem matches_star_iff : (star r).Matches p q ↔ Relation.ReflTransGen r.Takes p q := by
  constructor
  · intro h
    generalize hr : star r = r' at h
    induction h with
    | never p => exact .refl
    | @again r' p q q' h _ _ ih =>
      cases hr
      rcases Nat.lt_or_ge q.after.length p.after.length with hlength | hlength
      · exact .head ⟨h, hlength⟩ (ih rfl)
      · have heq := Place.Leads.eq_of_length h.leads (.refl p)
          (Nat.le_antisymm h.leads.length_le hlength)
        exact heq ▸ ih rfl
    | _ => cases hr
  · intro h
    induction h using Relation.ReflTransGen.head_induction_on with
    | refl => exact .never _
    | head h _ ih => exact .again h.1 ih

/-- A class any number of times takes any characters that are in it. -/
theorem exists_matches_star_one {s : CharClass} {put : List Char} (h : ∀ c ∈ put, s.has c = true)
    (before : Option Char) (cs : List Char) :
    ∃ before', (star (one s)).Matches ⟨before, put ++ cs⟩ ⟨before', cs⟩ := by
  induction put generalizing before with
  | nil => exact ⟨before, .never _⟩
  | cons c put ih =>
    rw [List.forall_mem_cons] at h
    obtain ⟨before', hmatches⟩ := ih h.2 (some c)
    exact ⟨before', .again (.one h.1 _) hmatches⟩

/-- It takes no others. -/
theorem exists_of_matches_star_one {s : CharClass} (h : (star (one s)).Matches p q) :
    ∃ put, p.after = put ++ q.after ∧ ∀ c ∈ put, s.has c = true := by
  generalize hr : star (one s) = r at h
  induction h with
  | never p => exact ⟨[], rfl, List.forall_mem_nil _⟩
  | @again r p q q' h _ _ ih =>
    cases hr
    obtain ⟨put, hq, hput⟩ := ih rfl
    cases h with
    | @one _ before c hc rest =>
      exact ⟨c :: put, congrArg (c :: ·) hq, List.forall_mem_cons.mpr ⟨hc, hput⟩⟩
  | _ => cases hr

/-- A class once or more takes one or more characters that are in it. -/
theorem exists_matches_plus_iff {s : CharClass} :
    (∃ before, (both (one s) (star (one s))).Matches p ⟨before, cs⟩) ↔
      ∃ put, put ≠ [] ∧ (∀ c ∈ put, s.has c = true) ∧ p.after = put ++ cs := by
  constructor
  · rintro ⟨before, h⟩
    cases h with
    | both h hmore =>
      cases h with
      | @one _ _ c hc rest =>
        obtain ⟨put, hrest, hput⟩ := exists_of_matches_star_one hmore
        exact ⟨c :: put, List.cons_ne_nil _ _, List.forall_mem_cons.mpr ⟨hc, hput⟩,
          congrArg (c :: ·) hrest⟩
  · rintro ⟨put, hne, hput, hafter⟩
    obtain ⟨before, after⟩ := p
    cases put with
    | nil => exact absurd rfl hne
    | cons c put =>
      obtain rfl := hafter
      rw [List.forall_mem_cons] at hput
      obtain ⟨before', hmore⟩ := exists_matches_star_one hput.2 (some c) cs
      exact ⟨before', .both (.one hput.1 _) hmore⟩

/-! ### Following all matches at once -/

variable {step : Place → List Place}

/-- The places one step on. -/
theorem mem_next_iff (hstep : ∀ p q, q ∈ step p ↔ r.Matches p q) (hps : ∀ p ∈ ps, o.Leads p) :
    q ∈ distinctPlaces (ps.flatMap fun p =>
      (step p).filter (fun q => q.after.length < p.after.length)) ↔ ∃ p ∈ ps, r.Takes p q := by
  have htaken : ∀ q, q ∈ ps.flatMap (fun p =>
      (step p).filter (fun q => q.after.length < p.after.length)) ↔ ∃ p ∈ ps, r.Takes p q := by
    simp [List.mem_flatMap, List.mem_filter, hstep, Takes]
  refine (mem_distinctPlaces (o := o) fun q hq => ?_).trans (htaken q)
  obtain ⟨p, hp, htakes⟩ := (htaken q).mp hq
  exact (hps p hp).trans htakes.1.leads

/-- Steps are repeated until no place is new; there are no more of them than characters. -/
theorem mem_iterate_iff (hstep : ∀ p q, q ∈ step p ↔ r.Matches p q) (fuel : Nat)
    (hps : ∀ p ∈ ps, o.Leads p) (hfuel : ∀ p ∈ ps, p.after.length ≤ fuel) :
    q ∈ iterate step fuel ps ↔ ∃ p ∈ ps, Relation.ReflTransGen r.Takes p q := by
  induction fuel generalizing ps with
  | zero =>
    rw [iterate]
    refine ⟨fun hq => ⟨q, hq, .refl⟩, ?_⟩
    rintro ⟨p, hp, hpq⟩
    rcases hpq.cases_head with rfl | ⟨p', htakes, -⟩
    · exact hp
    · exact absurd (Nat.lt_of_lt_of_le htakes.2 (hfuel p hp)) (Nat.not_lt_zero _)
  | succ fuel ih =>
    have hnext := fun p' => mem_next_iff (q := p') hstep hps
    rw [iterate]
    revert hnext
    generalize distinctPlaces (ps.flatMap fun p =>
      (step p).filter (fun q => q.after.length < p.after.length)) = next
    intro hnext
    have hrest : q ∈ iterate step fuel next ↔ ∃ p ∈ next, Relation.ReflTransGen r.Takes p q := by
      refine ih (fun p' hp' => ?_) fun p' hp' => ?_
      · obtain ⟨p, hp, htakes⟩ := (hnext p').mp hp'
        exact (hps p hp).trans htakes.1.leads
      · obtain ⟨p, hp, htakes⟩ := (hnext p').mp hp'
        exact Nat.le_of_lt_succ (Nat.lt_of_lt_of_le htakes.2 (hfuel p hp))
    have hsplit : (∃ p ∈ ps, Relation.ReflTransGen r.Takes p q) ↔
        q ∈ ps ∨ ∃ p ∈ next, Relation.ReflTransGen r.Takes p q := by
      constructor
      · rintro ⟨p, hp, hpq⟩
        rcases hpq.cases_head with rfl | ⟨p', hp', hq⟩
        · exact .inl hp
        · exact .inr ⟨p', (hnext p').mpr ⟨p, hp, hp'⟩, hq⟩
      · rintro (hq | ⟨p', hp', hq⟩)
        · exact ⟨q, hq, .refl⟩
        · obtain ⟨p, hp, htakes⟩ := (hnext p').mp hp'
          exact ⟨p, hp, .head htakes hq⟩
    rw [hsplit]
    cases next with
    | nil => simp
    | cons p' next => simpa using or_congr_right hrest

/-- The places where a match that starts at a place may end are those it may lead to. -/
theorem mem_ends_iff : ∀ {r : Regex} {p q : Place}, q ∈ r.ends p ↔ r.Matches p q := by
  intro r
  induction r with
  | empty =>
    intro p q
    rw [ends, List.mem_singleton]
    exact ⟨fun h => h ▸ .empty p, fun h => by cases h; rfl⟩
  | one s =>
    intro p q
    obtain ⟨before, after⟩ := p
    cases after with
    | nil =>
      refine iff_of_false (fun h => ?_) fun h => ?_
      · cases h
      · cases h
    | cons c rest =>
      rw [ends]
      constructor
      · intro h
        dsimp only at h
        split at h
        · rename_i hc
          exact List.mem_singleton.mp h ▸ .one hc rest
        · cases h
      · intro h
        cases h with
        | one hc => simp [hc]
  | anchor a =>
    intro p q
    rw [ends]
    constructor
    · intro h
      split at h
      · rename_i ha
        rw [List.mem_singleton.mp h]
        exact .anchor ha
      · cases h
    · intro h
      cases h with
      | anchor ha => simp [ha]
  | both r s ihr ihs =>
    intro p q
    have hmatches : ∀ q, q ∈ (ends r p).flatMap (ends s) ↔ (both r s).Matches p q := by
      intro q
      rw [List.mem_flatMap]
      constructor
      · rintro ⟨p', hp', hq⟩
        exact .both (ihr.mp hp') (ihs.mp hq)
      · intro h
        cases h with
        | both h h' => exact ⟨_, ihr.mpr h, ihs.mpr h'⟩
    rw [ends, mem_distinctPlaces fun q hq => ((hmatches q).mp hq).leads, hmatches]
  | either r s ihr ihs =>
    intro p q
    have hmatches : ∀ q, q ∈ ends r p ++ ends s p ↔ (either r s).Matches p q := by
      intro q
      rw [List.mem_append, ihr, ihs]
      constructor
      · rintro (h | h)
        · exact .left h
        · exact .right h
      · intro h
        cases h with
        | left h => exact .inl h
        | right h => exact .inr h
    rw [ends, mem_distinctPlaces fun q hq => ((hmatches q).mp hq).leads, hmatches]
  | star r ih =>
    intro p q
    have hmatches : ∀ q, q ∈ iterate (ends r) p.after.length [p] ↔ (star r).Matches p q := by
      intro q
      rw [matches_star_iff, mem_iterate_iff (o := p) fun p q => ih]
      · simp
      · simpa using Place.Leads.refl p
      · simp
    rw [ends, mem_distinctPlaces fun q hq => ((hmatches q).mp hq).leads, hmatches]

/-! ### Matches in a text -/

theorem occursFrom_iff (before : Option Char) : r.occursFrom before cs = true ↔
    ∃ p q, Place.Leads ⟨before, cs⟩ p ∧ r.Matches p q := by
  have hends : ∀ p : Place, (!(r.ends p).isEmpty) = true ↔ ∃ q, r.Matches p q := by
    intro p
    simp only [Bool.not_eq_true', List.isEmpty_eq_false_iff_exists_mem, mem_ends_iff]
  induction cs generalizing before with
  | nil =>
    rw [occursFrom, hends]
    constructor
    · rintro ⟨q, hq⟩
      exact ⟨_, q, .refl _, hq⟩
    · rintro ⟨p, q, hp, hq⟩
      cases hp
      exact ⟨q, hq⟩
  | cons c cs ih =>
    rw [occursFrom, Bool.or_eq_true, hends]
    constructor
    · rintro (⟨q, hq⟩ | hrest)
      · exact ⟨_, q, .refl _, hq⟩
      · obtain ⟨p, q, hp, hq⟩ := (ih (some c)).mp hrest
        exact ⟨p, q, .step hp, hq⟩
    · rintro ⟨p, q, hp, hq⟩
      cases hp with
      | refl => exact .inl ⟨q, hq⟩
      | step hp => exact .inr ((ih (some c)).mpr ⟨p, q, hp, hq⟩)

/-- A text has a match if one leads from some place in it to another. -/
theorem occursIn_iff (r : Regex) (t : String) : r.occursIn t = true ↔
    ∃ p q, Place.Leads ⟨none, t.toList⟩ p ∧ r.Matches p q :=
  occursFrom_iff none

end Regex

end Cookbook
