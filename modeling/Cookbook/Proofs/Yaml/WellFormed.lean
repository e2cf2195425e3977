import Cookbook.ConfigObject
import Cookbook.Proofs.Except
import Cookbook.Proofs.Value.Equality

/-!
# Documents give well-formed values

A repeated key is refused when a mapping is put together, so what is read from a document has no key
twice at any depth. Aliases and tags make no difference: what an alias stands for is decoded again,
and a tag is put around a value.

## Main definitions

* `Yaml.DecodeM.Yields`: every result of a decoder has a property.

## Main results

* `Yaml.isWellFormed_readValue`: reading a text as a value.
* `ConfigObject.isWellFormed_decode`: reading an object.
-/

namespace Cookbook

namespace Yaml

namespace DecodeM

variable {α β : Type} {R : α → Prop} {S : β → Prop}

/-- Every result of a decoder has a property, whatever the document and the count of aliases. -/
def Yields (x : DecodeM α) (R : α → Prop) : Prop :=
  ∀ d count a count', x d count = .ok (a, count') → R a

theorem Yields.pure {a : α} (h : R a) : Yields (pure a) R := by
  rintro d count b count' ⟨⟩
  exact h

theorem Yields.throw (e : Failure) : Yields (throw e) R := by
  rintro d count b count' ⟨⟩

theorem Yields.bind {x : DecodeM α} {f : α → DecodeM β} (hx : Yields x R)
    (hf : ∀ a, R a → Yields (f a) S) : Yields (x >>= f) S := by
  intro d count b count' h
  obtain ⟨⟨a, count₁⟩, ha, hb⟩ := Except.bind_eq_ok_iff.mp h
  exact hf a (hx d count a count₁ ha) d count₁ b count' hb

theorem Yields.any (x : DecodeM α) : Yields x fun _ => True :=
  fun _ _ _ _ _ => trivial

theorem Yields.mapM {γ : Type} {f : γ → DecodeM α} {l : List γ} (h : ∀ c ∈ l, Yields (f c) R) :
    Yields (l.mapM f) fun l' => ∀ a ∈ l', R a := by
  induction l with
  | nil =>
    refine Yields.pure ?_
    rintro a ⟨⟩
  | cons c l ih =>
    rw [List.mapM_cons]
    refine (h c (List.mem_cons_self ..)).bind fun a ha => ?_
    refine (ih fun c hc => h c (List.mem_cons_of_mem _ hc)).bind fun l' hl' => ?_
    exact Yields.pure (List.forall_mem_cons.mpr ⟨ha, hl'⟩)

theorem Yields.foldlM {γ : Type} {f : α → γ → DecodeM α} {l : List γ} {a : α} (ha : R a)
    (h : ∀ a, R a → ∀ c ∈ l, Yields (f a c) R) : Yields (l.foldlM f a) R := by
  induction l generalizing a with
  | nil => exact Yields.pure ha
  | cons c l ih =>
    rw [List.foldlM_cons]
    refine (h a ha c (List.mem_cons_self ..)).bind fun b hb => ?_
    exact ih hb fun a ha c hc => h a ha c (List.mem_cons_of_mem _ hc)

/-! ### Values -/

/-- A plain scalar never stands for a collection. -/
theorem isWellFormed_of_ofText {s : String} {v : Value} (h : Plain.ofText s = .value v) :
    v.isWellFormed = true := by
  unfold Plain.ofText Plain.ofInteger? at h
  grind [Value.isWellFormed]

theorem isWellFormed_of_ofInteger? {s : String} {v : Value}
    (h : Plain.ofInteger? s = some (.value v)) : v.isWellFormed = true := by
  unfold Plain.ofInteger? at h
  grind [Value.isWellFormed]

theorem yields_plain (s : String) : Yields (plain s) fun v => v.isWellFormed = true := by
  rw [plain]
  split
  · rename_i v hv
    exact Yields.pure (isWellFormed_of_ofText hv)
  · exact Yields.throw _
  · exact Yields.pure rfl

theorem yields_expecting {e : Failure} {found : Option Value} :
    (∀ v, found = some v → v.isWellFormed = true) →
      Yields (match found with | some v => pure v | none => throw e)
        fun v => v.isWellFormed = true := by
  intro h
  cases found with
  | none => exact Yields.throw _
  | some v => exact Yields.pure (h v rfl)

theorem yields_scalar (tag : Option String) (isPlain : Bool) (s : String) :
    Yields (scalar tag isPlain s) fun v => v.isWellFormed = true := by
  unfold scalar
  dsimp only
  split
  · split
    · exact yields_plain s
    · exact Yields.pure rfl
  · refine yields_expecting fun v hv => ?_
    obtain ⟨b, -, rfl⟩ := Option.map_eq_some_iff.mp hv
    rfl
  · split
    · rename_i v hv
      exact Yields.pure (isWellFormed_of_ofInteger? hv)
    · exact Yields.throw _
    · exact Yields.throw _
  · refine yields_expecting fun v hv => ?_
    obtain ⟨x, -, rfl⟩ := Option.map_eq_some_iff.mp hv
    rfl
  · refine yields_expecting fun v hv => ?_
    split at hv
    · cases hv
      rfl
    · cases hv
  · exact Yields.pure rfl

theorem isWellFormed_wrap {own : Option String} {v : Value} (h : v.isWellFormed = true) :
    (value.wrap own v).isWellFormed = true := by
  cases own with
  | none => exact h
  | some t => exact h

/-- The entries of a mapping that is being put together, the last one first. -/
def HeldBackwards (m : Mapping) : Prop :=
  (∀ e ∈ m.entries, e.1.isWellFormed = true ∧ e.2.isWellFormed = true) ∧
    m.entries.Pairwise fun e f => f.1.same e.1 = false

/-- Entries are put together only if their keys are different. -/
theorem yields_collect {entries : List (Value × Value)}
    (h : ∀ e ∈ entries, e.1.isWellFormed = true ∧ e.2.isWellFormed = true) :
    Yields (collect entries) fun v => v.isWellFormed = true := by
  rw [collect]
  refine Yields.bind (R := HeldBackwards)
    (Yields.foldlM ⟨by simp [Mapping.empty], List.Pairwise.nil⟩ fun m hm e he => ?_) fun m hm => ?_
  · split
    · exact Yields.throw _
    · rename_i hnew
      refine Yields.pure ⟨List.forall_mem_cons.mpr ⟨h e he, hm.1⟩, List.pairwise_cons.mpr ⟨?_, hm.2⟩⟩
      intro f hf
      rw [Mapping.get?, Option.isSome_map, List.find?_isSome] at hnew
      simpa using fun hsame => hnew ⟨f, hf, hsame⟩
  · refine Yields.pure (Value.areEntriesWellFormed_iff.mpr ⟨?_, List.pairwise_reverse.mpr hm.2⟩)
    exact fun e he => hm.1 e (List.mem_reverse.mp he)

theorem yields_wrap {own : Option String} {x : DecodeM Value}
    (h : Yields x fun v => v.isWellFormed = true) :
    Yields (x >>= fun v => pure (value.wrap own v)) fun v => v.isWellFormed = true :=
  h.bind fun _ hv => Yields.pure (isWellFormed_wrap hv)

/-- A scalar with a tag of its own is read as if it had none, and the tag is put around it. -/
theorem yields_scalarNode (tag : Option String) (isPlain : Bool) (s : String)
    {own : Option String} :
    Yields (if own.isSome then
        if isPlain then plain s >>= fun v => pure (value.wrap own v)
        else pure (.string s) >>= fun v => pure (value.wrap own v)
      else scalar tag isPlain s >>= fun v => pure (value.wrap own v))
      fun v => v.isWellFormed = true := by
  split
  · split
    · exact yields_wrap (yields_plain s)
    · exact yields_wrap (Yields.pure rfl)
  · exact yields_wrap (yields_scalar tag isPlain s)

theorem yields_value (depth : Nat) (n : Node) :
    Yields (value depth n) fun v => v.isWellFormed = true := by
  induction depth generalizing n with
  | zero =>
    rw [value]
    refine (Yields.any _).bind fun n _ => ?_
    cases n with
    | scalar tag isPlain s => exact yields_scalarNode tag isPlain s
    | seq tag items => exact yields_wrap (Yields.throw _)
    | map tag entries => exact yields_wrap (Yields.throw _)
    | _ => exact yields_wrap (Yields.pure rfl)
  | succ depth ih =>
    rw [value]
    refine (Yields.any _).bind fun n _ => ?_
    cases n with
    | scalar tag isPlain s => exact yields_scalarNode tag isPlain s
    | seq tag items =>
      refine (Yields.mapM fun n _ => ih n).bind fun vs hvs => ?_
      exact Yields.pure (isWellFormed_wrap (Value.areItemsWellFormed_iff.mpr hvs))
    | map tag entries =>
      refine Yields.bind (Yields.mapM (R := fun e => e.1.isWellFormed = true ∧ e.2.isWellFormed = true)
        fun e _ => ?_) fun es hes => ?_
      · refine (ih e.1).bind fun k hk => (ih e.2).bind fun v hv => ?_
        exact Yields.pure ⟨hk, hv⟩
      · exact yields_wrap (yields_collect hes)
    | _ => exact yields_wrap (Yields.pure rfl)

end DecodeM

/-- What a text reads as has no key twice, at any depth. -/
theorem isWellFormed_readValue {s : String} {v : Value} (h : readValue s = .ok v) :
    v.isWellFormed = true := by
  rw [readValue, readAs] at h
  obtain ⟨d, -, h⟩ := Except.bind_eq_ok_iff.mp h
  obtain ⟨⟨w, count⟩, hw, h⟩ := Except.bind_eq_ok_iff.mp h
  cases h
  exact DecodeM.yields_value _ _ d 0 v count hw

end Yaml

/-- An object that was read has no key twice, at any depth. -/
theorem ConfigObject.isWellFormed_decode {s : String} {o : ConfigObject} (h : decode s = .ok o) :
    o.isWellFormed = true := by
  rw [decode] at h
  split at h
  · cases h
  · cases h
    rfl
  · rename_i entries heq
    cases h
    exact Yaml.isWellFormed_readValue heq
  · cases h

end Cookbook
