import Cookbook.Error
import Cookbook.Proofs.Except

/-!
# What a change gives and what it leaves

Configuration, imports and checkpoints are all changed in the same way: a change may fail, and what
was changed before the failure stays changed. A statement about such a change is therefore about a
pair, the result and the state that is left, and the state matters in both cases.

## The readings

`Change.outcome` is that pair. It is what exact statements are about, where the result or the state
is known.

`Change.Keeps` is for invariants. It speaks of the state that is left *whether or not* the change
fails, and of the result only if it does not; a property of the result is what a later step may
rely on. Nothing is said about when a change fails.

`Change.Leads` is for what a change achieves. It speaks of the state that is left if the change
succeeds, and says under which condition it may fail at all. With the condition `True` it is partial
correctness, with `False` total correctness, so that one proof serves both.

`Change.FailsAs` speaks of the failures alone, whatever the state is.

## Main definitions

* `Change.outcome`: what a change gives and leaves.
* `Change.Keeps`: a change keeps an invariant.
* `Change.Leads`: a change leads from one kind of state to another.
* `Change.FailsAs`: all failures of a change have a property.

## Main results

* `Change.outcome_bind`: one change after the other.
* `Change.Keeps.bind`, `Change.Keeps.forM`: invariants of composed changes.
* `Change.Leads.bind`, `Change.Leads.forM_all`: a loop does to the state what a fold does to its
  description.
-/

namespace Cookbook

/-- A change of a state that may fail. -/
abbrev Change (σ : Type) := ExceptT Error (StateM σ)

namespace Change

variable {σ α β : Type} {P : σ → Prop} {R : α → Prop} {S : β → Prop}

/-! ### Outcomes -/

/-- What a change gives, and the state that it leaves. -/
def outcome (x : Change σ α) (s : σ) : Except Error α × σ := x.run.run s

@[simp] theorem outcome_pure (a : α) (s : σ) :
    outcome (pure a : Change σ α) s = (.ok a, s) := rfl

@[simp] theorem outcome_throw (e : Error) (s : σ) :
    outcome (throw e : Change σ α) s = (.error e, s) := rfl

@[simp] theorem outcome_get (s : σ) : outcome (get : Change σ σ) s = (.ok s, s) := rfl

@[simp] theorem outcome_set (s t : σ) :
    outcome (set t : Change σ PUnit) s = (.ok ⟨⟩, t) := rfl

@[simp] theorem outcome_modify (f : σ → σ) (s : σ) :
    outcome (modify f : Change σ PUnit) s = (.ok ⟨⟩, f s) := rfl

@[simp] theorem outcome_ofExcept (r : Except Error α) (s : σ) :
    outcome (MonadExcept.ofExcept r : Change σ α) s = (r, s) := by
  cases r <;> rfl

theorem outcome_bind (x : Change σ α) (f : α → Change σ β) (s : σ) :
    outcome (x >>= f) s = match outcome x s with
      | (.ok a, s') => outcome (f a) s'
      | (.error e, s') => (.error e, s') := by
  simp only [outcome, ExceptT.run_bind, StateT.run_bind]
  rcases x.run.run s with ⟨a | e, s'⟩ <;> rfl

theorem outcome_tryCatch (x : Change σ α) (handle : Error → Change σ α) (s : σ) :
    outcome (tryCatch x handle) s = match outcome x s with
      | (.ok a, s') => (.ok a, s')
      | (.error e, s') => outcome (handle e) s' := by
  simp only [outcome, ExceptT.run_tryCatch, StateT.run_bind]
  rcases x.run.run s with ⟨a | e, s'⟩ <;> rfl

/-- The step that is taken once a first change is known to succeed. -/
theorem outcome_bind_ok {x : Change σ α} {f : α → Change σ β} {s s' : σ} {a : α}
    (h : outcome x s = (.ok a, s')) : outcome (x >>= f) s = outcome (f a) s' := by
  rw [outcome_bind, h]

/-- Nothing follows a first change that fails. -/
theorem outcome_bind_error {x : Change σ α} {f : α → Change σ β} {s s' : σ} {e : Error}
    (h : outcome x s = (.error e, s')) : outcome (x >>= f) s = (.error e, s') := by
  rw [outcome_bind, h]

/-- A loop makes the first step and goes on with the rest. -/
theorem outcome_forM_cons (f : α → Change σ PUnit) (a : α) (l : List α) (s : σ) :
    outcome ((a :: l).forM f) s = match outcome (f a) s with
      | (.ok _, s') => outcome (l.forM f) s'
      | (.error e, s') => (.error e, s') := by
  have hstep : outcome ((a :: l).forM f) s = outcome (f a >>= fun _ => l.forM f) s := rfl
  rw [hstep, outcome_bind]
  rcases outcome (f a) s with ⟨_ | _, s'⟩ <;> rfl

/-- A composed change that succeeds is made of two that do. -/
theorem eq_ok_of_outcome_bind {x : Change σ α} {f : α → Change σ β} {s s'' : σ} {b : β}
    (h : outcome (x >>= f) s = (.ok b, s'')) :
    ∃ a s', outcome x s = (.ok a, s') ∧ outcome (f a) s' = (.ok b, s'') := by
  rw [outcome_bind] at h
  split at h
  · rename_i a s' hx
    exact ⟨a, s', hx, h⟩
  · cases h

/-! ### Invariants -/

/-- The change leads from states with `P` to states with `P`, and what it gives has `R`. -/
def Keeps (P : σ → Prop) (x : Change σ α) (R : α → Prop) : Prop :=
  ∀ s, P s → P (outcome x s).2 ∧ ∀ a, (outcome x s).1 = .ok a → R a

theorem Keeps.state {x : Change σ α} (h : Keeps P x R) {s s' : σ} {r : Except Error α} (hs : P s)
    (hx : outcome x s = (r, s')) : P s' := by
  have := (h s hs).1
  rwa [hx] at this

theorem Keeps.result {x : Change σ α} (h : Keeps P x R) {s s' : σ} {a : α} (hs : P s)
    (hx : outcome x s = (.ok a, s')) : R a :=
  (h s hs).2 a (by rw [hx])

theorem Keeps.mono {x : Change σ α} {R' : α → Prop} (h : Keeps P x R) (hR : ∀ a, R a → R' a) :
    Keeps P x R' :=
  fun s hs => ⟨(h s hs).1, fun a ha => hR a ((h s hs).2 a ha)⟩

theorem Keeps.pure {a : α} (h : R a) : Keeps P (pure a) R := by
  intro s hs
  refine ⟨hs, ?_⟩
  rintro b ⟨⟩
  exact h

theorem Keeps.throw (e : Error) : Keeps P (throw e) R := by
  intro s hs
  refine ⟨hs, ?_⟩
  rintro b ⟨⟩

theorem Keeps.get : Keeps P get P := by
  intro s hs
  refine ⟨hs, ?_⟩
  rintro b ⟨⟩
  exact hs

theorem Keeps.ofExcept {r : Except Error α} (h : ∀ a, r = .ok a → R a) :
    Keeps P (MonadExcept.ofExcept r) R := by
  intro s hs
  rw [outcome_ofExcept]
  exact ⟨hs, h⟩

theorem Keeps.bind {x : Change σ α} {f : α → Change σ β} (hx : Keeps P x R)
    (hf : ∀ a, R a → Keeps P (f a) S) : Keeps P (x >>= f) S := by
  intro s hs
  rw [outcome_bind]
  rcases h : outcome x s with ⟨e | a, s'⟩
  · exact ⟨hx.state hs h, by rintro b ⟨⟩⟩
  · exact hf a (hx.result hs h) s' (hx.state hs h)

theorem Keeps.forM {l : List α} {f : α → Change σ PUnit}
    (h : ∀ a ∈ l, Keeps P (f a) fun _ => True) : Keeps P (l.forM f) fun _ => True := by
  induction l with
  | nil => exact Keeps.pure trivial
  | cons a l ih =>
    refine Keeps.bind (h a (List.mem_cons_self ..)) fun _ _ => ?_
    exact ih fun b hb => h b (List.mem_cons_of_mem _ hb)

theorem Keeps.mapM {l : List α} {f : α → Change σ β} (h : ∀ a ∈ l, Keeps P (f a) fun _ => True) :
    Keeps P (l.mapM f) fun _ => True := by
  induction l with
  | nil => exact Keeps.pure trivial
  | cons a l ih =>
    rw [List.mapM_cons]
    refine Keeps.bind (h a (List.mem_cons_self ..)) fun _ _ => ?_
    refine Keeps.bind (ih fun b hb => h b (List.mem_cons_of_mem _ hb)) fun _ _ => ?_
    exact Keeps.pure trivial

/-! ### Achievements -/

/-- From states with `P` the change leads to states with `Q`, or else it fails, which happens only
if `E` holds. -/
def Leads (P : σ → Prop) (x : Change σ α) (Q : α → σ → Prop) (E : Prop) : Prop :=
  ∀ s, P s → (∃ a s', outcome x s = (.ok a, s') ∧ Q a s') ∨
    E ∧ ∃ e s', outcome x s = (.error e, s')

section Leads

variable {E : Prop} {Q : α → σ → Prop} {T : β → σ → Prop}

theorem Leads.of_ok {x : Change σ α} (h : Leads P x Q E) {s s' : σ} {a : α} (hs : P s)
    (hx : outcome x s = (.ok a, s')) : Q a s' := by
  rcases h s hs with ⟨b, t, hb, hQ⟩ | ⟨-, e, t, he⟩
  · rw [hx] at hb
    cases hb
    exact hQ
  · rw [hx] at he
    cases he

theorem Leads.exists_ok {x : Change σ α} (h : Leads P x Q E) (hE : ¬E) {s : σ} (hs : P s) :
    ∃ a s', outcome x s = (.ok a, s') ∧ Q a s' :=
  (h s hs).resolve_right fun h => hE h.1

theorem Leads.mono {x : Change σ α} {Q' : α → σ → Prop} {E' : Prop} (h : Leads P x Q E)
    (hQ : ∀ a s, Q a s → Q' a s) (hE : E → E') : Leads P x Q' E' := by
  intro s hs
  refine (h s hs).imp ?_ (And.imp_left hE)
  rintro ⟨a, s', hx, h⟩
  exact ⟨a, s', hx, hQ a s' h⟩

theorem Leads.of_keeps {P P' : σ → Prop} {x : Change σ α} (h : Keeps P x R)
    (hP : ∀ s, P' s → P s) : Leads P' x (fun a s => R a ∧ P s) True := by
  intro s hs
  rcases hx : outcome x s with ⟨e | a, s'⟩
  · exact .inr ⟨trivial, e, s', rfl⟩
  · exact .inl ⟨a, s', rfl, h.result (hP s hs) hx, h.state (hP s hs) hx⟩

theorem Leads.pure {a : α} (h : ∀ s, P s → Q a s) : Leads P (pure a) Q E :=
  fun s hs => .inl ⟨a, s, rfl, h s hs⟩

theorem Leads.bind {x : Change σ α} {f : α → Change σ β} (hx : Leads P x Q E)
    (hf : ∀ a, Leads (Q a) (f a) T E) : Leads P (x >>= f) T E := by
  intro s hs
  rcases hx s hs with ⟨a, s', h, hQ⟩ | ⟨hE, e, s', h⟩
  · rw [outcome_bind_ok h]
    exact hf a s' hQ
  · exact .inr ⟨hE, e, s', outcome_bind_error h⟩

/-- What follows a first change that keeps an invariant may rely on what that one gave. -/
theorem Leads.bind_of_keeps {x : Change σ α} {f : α → Change σ β} (hx : Keeps P x R)
    (hf : ∀ a, R a → Leads P (f a) T True) : Leads P (x >>= f) T True := by
  intro s hs
  rcases h : outcome x s with ⟨e | a, s'⟩
  · exact .inr ⟨trivial, e, s', outcome_bind_error h⟩
  · rw [outcome_bind_ok h]
    exact hf a (hx.result hs h) s' (hx.state hs h)

/-- What a change leads to and what it keeps, together. -/
theorem Leads.keeping {P' : σ → Prop} {x : Change σ α} (h : Leads P x Q E) (hkeeps : Keeps P' x R) :
    Leads (fun s => P s ∧ P' s) x (fun a s => Q a s ∧ P' s) E := by
  rintro s ⟨hs, hs'⟩
  refine (h s hs).imp_left ?_
  rintro ⟨a, s', hx, hQ⟩
  exact ⟨a, s', hx, hQ, hkeeps.state hs' hx⟩

/-- Where each step of a loop does `g` to what the state shows, the loop folds `g`. What every
step finds of its item holds of all items, if the loop ends. -/
theorem Leads.forM_all {τ : Type} {V : τ → σ → Prop} {l : List α} {f : α → Change σ PUnit}
    {g : τ → α → τ} (h : ∀ a ∈ l, ∀ t, Leads (V t) (f a) (fun _ s => V (g t a) s ∧ R a) E) (t : τ) :
    Leads (V t) (l.forM f) (fun _ s => V (l.foldl g t) s ∧ ∀ a ∈ l, R a) E := by
  induction l generalizing t with
  | nil => exact Leads.pure fun _ hs => ⟨hs, by simp⟩
  | cons a l ih =>
    have hrest := ih (fun b hb => h b (List.mem_cons_of_mem _ hb)) (g t a)
    refine (h a (List.mem_cons_self ..) t).bind fun _ s hs => ?_
    refine (hrest s hs.1).imp_left ?_
    rintro ⟨u, s', hx, hV, hR⟩
    exact ⟨u, s', hx, hV, List.forall_mem_cons.mpr ⟨hs.2, hR⟩⟩

/-- A loop whose steps find nothing of their items. -/
theorem Leads.forM {τ : Type} {V : τ → σ → Prop} {l : List α} {f : α → Change σ PUnit}
    {g : τ → α → τ} (h : ∀ a ∈ l, ∀ t, Leads (V t) (f a) (fun _ => V (g t a)) E) (t : τ) :
    Leads (V t) (l.forM f) (fun _ => V (l.foldl g t)) E := by
  refine Leads.mono (Leads.forM_all (R := fun _ => True) (fun a ha t => ?_) t)
    (fun _ _ hs => hs.1) id
  exact (h a ha t).mono (fun _ _ hs => ⟨hs, trivial⟩) id

end Leads

/-! ### Failures -/

/-- Every failure of a change has a property, whatever state it starts from. -/
def FailsAs (F : Error → Prop) (x : Change σ α) : Prop := ∀ s, Except.FailsAs F (outcome x s).1

section FailsAs

variable {F : Error → Prop}

theorem FailsAs.mono {G : Error → Prop} {x : Change σ α} (hx : FailsAs F x) (h : ∀ e, F e → G e) :
    FailsAs G x :=
  fun s => (hx s).mono h

theorem FailsAs.pure (a : α) : FailsAs F (pure a : Change σ α) :=
  fun _ => Except.FailsAs.ok a

theorem FailsAs.throw {e : Error} (h : F e) : FailsAs F (throw e : Change σ α) :=
  fun _ => Except.FailsAs.error h

theorem FailsAs.ofExcept {r : Except Error α} (h : Except.FailsAs F r) :
    FailsAs F (MonadExcept.ofExcept r : Change σ α) := by
  intro s
  rw [outcome_ofExcept]
  exact h

theorem FailsAs.bind {x : Change σ α} {f : α → Change σ β} (hx : FailsAs F x)
    (hf : ∀ a, FailsAs F (f a)) : FailsAs F (x >>= f) := by
  intro s
  rw [outcome_bind]
  have hs := hx s
  rcases h : outcome x s with ⟨e | a, s'⟩
  · rw [h] at hs
    exact Except.FailsAs.error (hs e rfl)
  · exact hf a s'

theorem FailsAs.forM {l : List α} {f : α → Change σ PUnit} (h : ∀ a ∈ l, FailsAs F (f a)) :
    FailsAs F (l.forM f) := by
  induction l with
  | nil => exact FailsAs.pure _
  | cons a l ih =>
    refine (h a (List.mem_cons_self ..)).bind fun _ => ?_
    exact ih fun b hb => h b (List.mem_cons_of_mem _ hb)

theorem FailsAs.mapM {l : List α} {f : α → Change σ β} (h : ∀ a ∈ l, FailsAs F (f a)) :
    FailsAs F (l.mapM f) := by
  induction l with
  | nil => exact FailsAs.pure _
  | cons a l ih =>
    rw [List.mapM_cons]
    refine (h a (List.mem_cons_self ..)).bind fun b => ?_
    exact (ih fun b hb => h b (List.mem_cons_of_mem _ hb)).bind fun bs => FailsAs.pure _

end FailsAs

end Change

end Cookbook
