import Mathlib.Data.List.Forall2

/-!
# Computations that may fail

Reading and checking are computations in `Except`: nothing is changed, and the first failure is the
result. So whether a composed computation succeeds, and with what, is a question of which steps do.

## Main definitions

* `Except.FailsAs`: what all failures of a computation are like.
* `Except.Alike`: two computations that fail alike and have results that belong together.

## Main results

* `Except.bind_eq_ok_iff`: a composed computation succeeds if both parts do.
* `Except.foldlM_invariant`, `Except.foldlM_brings`: what repeated steps keep, and what they bring.
* `Except.exists_foldlM_eq_ok`: when none of them fails.
* `Except.exists_of_mapM_eq_ok`, `Except.exists_of_mem_mapM`, `Except.forall₂_of_mapM_eq_ok`: the
  results of a list.
* `Except.mapM_eq_ok_map`, `Except.exists_mapM_eq_ok`: when a list has results.
* `Except.exists_of_mem_filterM`: what a filter says about each item.
* `Except.Alike.bind`, `Except.Alike.foldlM`: computations that go alike.
-/

namespace Cookbook

namespace Except

universe u v w

variable {ε : Type u} {α β : Type v} {γ : Type w}

theorem bind_eq_ok_iff {x : Except ε α} {f : α → Except ε β} {b : β} :
    (x >>= f) = .ok b ↔ ∃ a, x = .ok a ∧ f a = .ok b := by
  cases x with
  | error e =>
    constructor
    · rintro ⟨⟩
    · rintro ⟨a, ⟨⟩, _⟩
  | ok a =>
    constructor
    · intro h
      exact ⟨a, rfl, h⟩
    · rintro ⟨a', ⟨⟩, h⟩
      exact h

/-! ### Properties of the result -/

instance decidableExistsOk {x : Except ε α} {P : α → Prop} [DecidablePred P] :
    Decidable (∃ a, x = .ok a ∧ P a) :=
  match x with
  | .ok a => decidable_of_iff (P a) ⟨fun h => ⟨a, rfl, h⟩, fun ⟨_, ha, h⟩ => Except.ok.inj ha ▸ h⟩
  | .error _ => isFalse fun ⟨_, ha, _⟩ => nomatch ha

instance decidableForallOk {x : Except ε α} {P : α → Prop} [DecidablePred P] :
    Decidable (∀ a, x = .ok a → P a) :=
  match x with
  | .ok a => decidable_of_iff (P a) ⟨fun h _ ha => Except.ok.inj ha ▸ h, fun h => h a rfl⟩
  | .error _ => isTrue fun _ ha => nomatch ha

/-! ### Repeated steps -/

/-- A property that each step of a fold keeps. -/
theorem foldlM_invariant {P : β → Prop} {l : List γ} {f : β → γ → Except ε β}
    (hstep : ∀ b, P b → ∀ c ∈ l, ∀ b', f b c = .ok b' → P b') {b b' : β} (hb : P b)
    (h : l.foldlM f b = .ok b') : P b' := by
  induction l generalizing b with
  | nil =>
    cases h
    exact hb
  | cons c l ih =>
    rw [List.foldlM_cons] at h
    obtain ⟨b₁, h₁, h⟩ := bind_eq_ok_iff.mp h
    refine ih (fun b hb c hc => hstep b hb c (List.mem_cons_of_mem _ hc)) ?_ h
    exact hstep b hb c (List.mem_cons_self ..) b₁ h₁

/-- A fold whose steps cannot fail. -/
theorem foldlM_eq_ok {l : List γ} {f : β → γ → Except ε β} {g : β → γ → β}
    (h : ∀ b, ∀ c ∈ l, f b c = .ok (g b c)) (b : β) : l.foldlM f b = .ok (l.foldl g b) := by
  induction l generalizing b with
  | nil => rfl
  | cons c l ih =>
    rw [List.foldlM_cons, h b c (List.mem_cons_self ..)]
    exact ih (fun b c hc => h b c (List.mem_cons_of_mem _ hc)) (g b c)

/-- A property that each step of a fold keeps, and what each step brings and later ones keep. -/
theorem foldlM_brings {P : β → Prop} {D : γ → β → Prop} {l : List γ} {f : β → γ → Except ε β}
    (hstep : ∀ b, P b → ∀ c ∈ l, ∀ b', f b c = .ok b' → P b' ∧ D c b' ∧ ∀ c', D c' b → D c' b')
    {b b' : β} (hb : P b) (h : l.foldlM f b = .ok b') :
    P b' ∧ (∀ c ∈ l, D c b') ∧ ∀ c', D c' b → D c' b' := by
  induction l generalizing b with
  | nil =>
    cases h
    refine ⟨hb, ?_, fun _ hd => hd⟩
    rintro c ⟨⟩
  | cons c l ih =>
    rw [List.foldlM_cons] at h
    obtain ⟨b₁, h₁, h⟩ := bind_eq_ok_iff.mp h
    obtain ⟨hb₁, hc, hkeep⟩ := hstep b hb c (List.mem_cons_self ..) b₁ h₁
    obtain ⟨hb', hl, hkeep'⟩ :=
      ih (fun b hb c hc => hstep b hb c (List.mem_cons_of_mem _ hc)) hb₁ h
    exact ⟨hb', List.forall_mem_cons.mpr ⟨hkeep' c hc, hl⟩, fun c' hc' => hkeep' c' (hkeep c' hc')⟩

/-- A fold whose steps all succeed from states with a property, keeping it. -/
theorem exists_foldlM_eq_ok {P : β → Prop} {l : List γ} {f : β → γ → Except ε β}
    (hstep : ∀ b, P b → ∀ c ∈ l, ∃ b', f b c = .ok b' ∧ P b') {b : β} (hb : P b) :
    ∃ b', l.foldlM f b = .ok b' ∧ P b' := by
  induction l generalizing b with
  | nil => exact ⟨b, rfl, hb⟩
  | cons c l ih =>
    obtain ⟨b₁, h₁, hb₁⟩ := hstep b hb c (List.mem_cons_self ..)
    obtain ⟨b', h, hb'⟩ := ih (fun b hb c hc => hstep b hb c (List.mem_cons_of_mem _ hc)) hb₁
    refine ⟨b', ?_, hb'⟩
    rw [List.foldlM_cons, h₁]
    exact h

/-- The results of a list are in the order of its items. -/
theorem forall₂_of_mapM_eq_ok {f : γ → Except ε β} {l : List γ} {l' : List β}
    (h : l.mapM f = .ok l') : l.Forall₂ (fun c b => f c = .ok b) l' := by
  induction l generalizing l' with
  | nil =>
    cases h
    exact .nil
  | cons c l ih =>
    rw [List.mapM_cons] at h
    obtain ⟨b, hb, h⟩ := bind_eq_ok_iff.mp h
    obtain ⟨bs, hbs, h⟩ := bind_eq_ok_iff.mp h
    cases h
    exact .cons hb (ih hbs)

/-- Each item of a list has a result. -/
theorem exists_of_mem_mapM {f : γ → Except ε β} {l : List γ} {l' : List β}
    (h : l.mapM f = .ok l') : ∀ c ∈ l, ∃ b ∈ l', f c = .ok b := by
  obtain ⟨hlength, hget⟩ := List.forall₂_iff_get.mp (forall₂_of_mapM_eq_ok h)
  intro c hc
  obtain ⟨i, hi, rfl⟩ := List.getElem_of_mem hc
  exact ⟨_, List.get_mem l' ⟨i, hlength ▸ hi⟩, hget i hi _⟩

/-- Each result of a list comes from an item. -/
theorem exists_of_mapM_eq_ok {f : γ → Except ε β} {l : List γ} {l' : List β}
    (h : l.mapM f = .ok l') : ∀ b ∈ l', ∃ c ∈ l, f c = .ok b := by
  obtain ⟨hlength, hget⟩ := List.forall₂_iff_get.mp (forall₂_of_mapM_eq_ok h)
  intro b hb
  obtain ⟨i, hi, rfl⟩ := List.getElem_of_mem hb
  exact ⟨_, List.get_mem l ⟨i, hlength ▸ hi⟩, hget i _ hi⟩

theorem mapM_eq_ok_map {f : γ → Except ε β} {g : γ → β} {l : List γ}
    (h : ∀ c ∈ l, f c = .ok (g c)) : l.mapM f = .ok (l.map g) := by
  induction l with
  | nil => rfl
  | cons c l ih =>
    rw [List.mapM_cons, h c List.mem_cons_self, ih fun c hc => h c (List.mem_cons_of_mem _ hc)]
    rfl

/-- A list has results if each of its items has one. -/
theorem exists_mapM_eq_ok {f : γ → Except ε β} {l : List γ} (h : ∀ c ∈ l, ∃ b, f c = .ok b) :
    ∃ l', l.mapM f = .ok l' := by
  induction l with
  | nil => exact ⟨[], rfl⟩
  | cons c l ih =>
    obtain ⟨b, hb⟩ := h c List.mem_cons_self
    obtain ⟨bs, hbs⟩ := ih fun c hc => h c (List.mem_cons_of_mem _ hc)
    refine ⟨b :: bs, ?_⟩
    rw [List.mapM_cons, hb, hbs]
    rfl

/-- If each item has a result with some property, results of that kind can be given by a function. -/
theorem exists_mapM_eq_ok_map [Nonempty β] {f : γ → Except ε β} {l : List γ} {P : γ → β → Prop}
    (h : ∀ c ∈ l, ∃ b, f c = .ok b ∧ P c b) :
    ∃ g : γ → β, l.mapM f = .ok (l.map g) ∧ ∀ c ∈ l, P c (g c) := by
  choose! g hok hresult using h
  exact ⟨g, mapM_eq_ok_map hok, hresult⟩

/-- What a filter does not keep was looked at and refused. -/
theorem exists_of_mem_filterM {δ : Type} {f : δ → Except ε Bool} {l l' : List δ}
    (h : l.filterM f = .ok l') : ∀ d ∈ l, ∃ b, f d = .ok b ∧ (b = true → d ∈ l') := by
  -- the list that is gathered in reverse only grows
  have haux : ∀ {l acc found : List δ}, l.filterAuxM f acc = .ok found →
      acc ⊆ found ∧ ∀ d ∈ l, ∃ b, f d = .ok b ∧ (b = true → d ∈ found) := by
    intro l
    induction l with
    | nil =>
      intro acc found h
      cases h
      exact ⟨List.Subset.refl _, by simp⟩
    | cons d l ih =>
      intro acc found h
      obtain ⟨b, hb, h⟩ := bind_eq_ok_iff.mp h
      obtain ⟨hgrown, hrest⟩ := ih h
      refine ⟨fun x hx => hgrown ?_,
        List.forall_mem_cons.mpr ⟨⟨b, hb, fun htrue => hgrown ?_⟩, hrest⟩⟩
      · cases b with
        | true => exact List.mem_cons_of_mem _ hx
        | false => exact hx
      · rw [htrue]
        exact List.mem_cons_self ..
  obtain ⟨found, hfound, h⟩ := bind_eq_ok_iff.mp h
  cases h
  intro d hd
  obtain ⟨b, hb, hmem⟩ := (haux hfound).2 d hd
  exact ⟨b, hb, fun htrue => List.mem_reverse.mpr (hmem htrue)⟩

/-- A filter that refuses everything. -/
theorem filterM_eq_nil {δ : Type} {f : δ → Except ε Bool} {l : List δ}
    (h : ∀ d ∈ l, f d = .ok false) : l.filterM f = .ok [] := by
  have haux : ∀ acc, l.filterAuxM f acc = .ok acc := by
    intro acc
    induction l with
    | nil => rfl
    | cons d l ih =>
      rw [List.forall_mem_cons] at h
      rw [List.filterAuxM, h.1]
      exact ih h.2
  rw [List.filterM, haux]
  rfl

/-! ### Failures -/

/-- Every failure of a computation has a property. -/
def FailsAs (P : ε → Prop) (x : Except ε α) : Prop := ∀ e, x = .error e → P e

section FailsAs

variable {P : ε → Prop}

theorem FailsAs.ok (a : α) : FailsAs P (.ok a) := by
  rintro e ⟨⟩

theorem FailsAs.error {e : ε} (h : P e) : FailsAs P (.error e : Except ε α) := by
  rintro e ⟨⟩
  exact h

theorem FailsAs.mono {Q : ε → Prop} {x : Except ε α} (hx : FailsAs P x) (h : ∀ e, P e → Q e) :
    FailsAs Q x :=
  fun e he => h e (hx e he)

theorem FailsAs.bind {x : Except ε α} {f : α → Except ε β} (hx : FailsAs P x)
    (hf : ∀ a, FailsAs P (f a)) : FailsAs P (x >>= f) := by
  intro e h
  cases x with
  | error e' =>
    cases h
    exact hx e rfl
  | ok a => exact hf a e h

theorem FailsAs.foldlM {l : List γ} {f : β → γ → Except ε β}
    (h : ∀ b, ∀ c ∈ l, FailsAs P (f b c)) (b : β) : FailsAs P (l.foldlM f b) := by
  induction l generalizing b with
  | nil => exact FailsAs.ok b
  | cons c l ih =>
    rw [List.foldlM_cons]
    refine (h b c (List.mem_cons_self ..)).bind fun b => ?_
    exact ih (fun b c hc => h b c (List.mem_cons_of_mem _ hc)) b

theorem FailsAs.mapM {l : List γ} {f : γ → Except ε β} (h : ∀ c ∈ l, FailsAs P (f c)) :
    FailsAs P (l.mapM f) := by
  induction l with
  | nil => exact FailsAs.ok []
  | cons c l ih =>
    rw [List.mapM_cons]
    refine (h c (List.mem_cons_self ..)).bind fun b => ?_
    exact (ih fun c hc => h c (List.mem_cons_of_mem _ hc)).bind fun bs => FailsAs.ok _

theorem FailsAs.filterM {δ : Type} {f : δ → Except ε Bool} {l : List δ}
    (h : ∀ d ∈ l, FailsAs P (f d)) : FailsAs P (l.filterM f) := by
  have haux : ∀ acc, FailsAs P (l.filterAuxM f acc) := by
    induction l with
    | nil => exact fun acc => FailsAs.ok acc
    | cons d l ih =>
      intro acc
      refine (h d (List.mem_cons_self ..)).bind fun b => ?_
      exact ih (fun d hd => h d (List.mem_cons_of_mem _ hd)) _
  exact (haux []).bind fun l' => FailsAs.ok l'.reverse

/-- Folds are the same if their steps are, apart from those that fail in a way that the fold does
not. -/
theorem foldlM_congr {l : List γ} {f g : β → γ → Except ε β} {e : ε}
    (hstep : ∀ b, ∀ c ∈ l, f b c ≠ .error e → g b c = f b c) {b : β}
    (h : l.foldlM f b ≠ .error e) : l.foldlM g b = l.foldlM f b := by
  induction l generalizing b with
  | nil => rfl
  | cons c l ih =>
    rw [List.foldlM_cons] at h ⊢
    rw [List.foldlM_cons]
    have hfirst : f b c ≠ .error e := by
      intro hfail
      rw [hfail] at h
      exact h rfl
    rw [hstep b c (List.mem_cons_self ..) hfirst]
    cases hb : f b c with
    | error e' => rfl
    | ok b' =>
      rw [hb] at h
      exact ih (fun b c hc => hstep b c (List.mem_cons_of_mem _ hc)) h

/-- A failure of a fold is one of its steps. -/
theorem exists_of_foldlM_eq_error {l : List γ} {f : β → γ → Except ε β} {b : β} {e : ε}
    (h : l.foldlM f b = .error e) : ∃ b, ∃ c ∈ l, f b c = .error e := by
  by_contra hnone
  refine FailsAs.foldlM (P := (· ≠ e)) (fun b c hc e' he' => ?_) b e h rfl
  rintro rfl
  exact hnone ⟨b, c, hc, he'⟩

end FailsAs

/-! ### Two computations -/

/-- Two computations go alike: both have results, which belong together, or both fail in the same
way. -/
inductive Alike (F : ε → Prop) (R : α → β → Prop) : Except ε α → Except ε β → Prop where
  /-- Both have results. -/
  | ok {a : α} {b : β} (h : R a b) : Alike F R (.ok a) (.ok b)
  /-- Both fail. -/
  | error {e : ε} (h : F e) : Alike F R (.error e) (.error e)

namespace Alike

variable {α' β' : Type v} {F : ε → Prop} {R : α → β → Prop} {R' : α' → β' → Prop}
  {x : Except ε α} {y : Except ε β}

theorem mono {R' : α → β → Prop} (h : Alike F R x y) (hmono : ∀ a b, R a b → R' a b) :
    Alike F R' x y := by
  cases h with
  | ok hab => exact .ok (hmono _ _ hab)
  | error he => exact .error he

theorem bind {f : α → Except ε α'} {g : β → Except ε β'} (h : Alike F R x y)
    (hstep : ∀ a b, R a b → Alike F R' (f a) (g b)) : Alike F R' (x >>= f) (y >>= g) := by
  cases h with
  | ok hab => exact hstep _ _ hab
  | error he => exact .error he

theorem map_left {f : α → α'} {R' : α' → β → Prop} (h : Alike F R x y)
    (hmap : ∀ a b, R a b → R' (f a) b) : Alike F R' (x.map f) y := by
  cases h with
  | ok hab => exact .ok (hmap _ _ hab)
  | error he => exact .error he

theorem map {f : α → α'} {g : β → β'} (h : Alike F R x y) (hmap : ∀ a b, R a b → R' (f a) (g b)) :
    Alike F R' (x.map f) (y.map g) := by
  cases h with
  | ok hab => exact .ok (hmap _ _ hab)
  | error he => exact .error he

/-- What a result says of the other computation. -/
theorem map_eq {f : α → β} (h : Alike F R x y) (hmap : ∀ a b, R a b → f a = b) : x.map f = y := by
  cases h with
  | ok hab => exact congrArg Except.ok (hmap _ _ hab)
  | error he => rfl

/-- Computations that go alike with the same results are the same. -/
protected theorem eq {x y : Except ε α} (h : Alike F Eq x y) : x = y := by
  cases h with
  | ok hab => exact congrArg Except.ok hab
  | error he => rfl

theorem failsAs (h : Alike F R x y) : FailsAs F x := by
  rintro e rfl
  cases h with
  | error he => exact he

/-- Folds go alike if their steps do, from any states that belong together. -/
theorem foldlM {l : List γ} {f : α → γ → Except ε α} {g : β → γ → Except ε β}
    (hstep : ∀ a b, R a b → ∀ c ∈ l, Alike F R (f a c) (g b c)) {a : α} {b : β} (h : R a b) :
    Alike F R (l.foldlM f a) (l.foldlM g b) := by
  induction l generalizing a b with
  | nil => exact .ok h
  | cons c l ih =>
    rw [List.foldlM_cons, List.foldlM_cons]
    refine (hstep a b h c (List.mem_cons_self ..)).bind fun a b hab => ?_
    exact ih (fun a b hab c hc => hstep a b hab c (List.mem_cons_of_mem _ hc)) hab

end Alike

end Except

end Cookbook
