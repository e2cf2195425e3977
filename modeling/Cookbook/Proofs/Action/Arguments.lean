import Cookbook.Action.Core
import Cookbook.Proofs.Except
import Cookbook.Proofs.Value.Equality

/-!
# What a value gives to the parameters of a method

A value is spread over the parameters of a method in one of three ways: whole, to one parameter;
item by item, by position; entry by entry, by name. `Supplies` says what each parameter gets,
without saying how, and `Misfits` says when a value cannot be meant for the parameters. Spreading
gives what is supplied and nothing else, and there are arguments unless the value misfits.

Entries are put in one after the other. That none of them takes the place of another rests on the
keys: they are different strings, so they name different parameters. A key that is no string counts
as an empty name, which no parameter has.

## Main definitions

* `Value.hasNoTags`: there is no tag in a value, at any depth.
* `TakesWhole`, `Supplies`: what a value gives to the parameters.
* `Unspreadable`, `Misfits`: the reasons why a value gives no arguments.
* `Fits`: arguments that are as they should be.

## Main results

* `ActionMethod.spreads_or_refuses`: what spreading gives, and when it fails.
* `ActionMethod.length_of_arguments`: there is one argument for each parameter.
* `ActionMethod.fits_of_arguments`: what the arguments are, when there are none, and that no method
  looks for more.
-/

namespace Cookbook

/-! ### Values without tags

The accessors see through tags, and a match on the constructors does not. On a value in which there
are no tags the two agree. -/

namespace Value

mutual

/-- There is no tag in the value. -/
def hasNoTags : Value → Bool
  | .seq items => haveItemsNoTags items
  | .map entries => haveEntriesNoTags entries
  | .tagged .. => false
  | _ => true

/-- There is no tag in the items. -/
def haveItemsNoTags : List Value → Bool
  | [] => true
  | x :: xs => x.hasNoTags && haveItemsNoTags xs

/-- There is no tag in the keys and the values of the entries. -/
def haveEntriesNoTags : List (Value × Value) → Bool
  | [] => true
  | (k, v) :: es => k.hasNoTags && v.hasNoTags && haveEntriesNoTags es

end

theorem haveEntriesNoTags_iff {es : List (Value × Value)} :
    haveEntriesNoTags es = true ↔ ∀ e ∈ es, e.1.hasNoTags = true ∧ e.2.hasNoTags = true := by
  induction es with
  | nil => simp [haveEntriesNoTags]
  | cons e es ih =>
    rw [haveEntriesNoTags, Bool.and_eq_true, Bool.and_eq_true, ih, List.forall_mem_cons]

variable {v : Value}

theorem untagged_of_hasNoTags (h : v.hasNoTags = true) : v.untagged = v := by
  cases v <;> first | rfl | cases h

theorem asString?_iff (h : v.hasNoTags = true) {s : String} :
    v.asString? = some s ↔ v = .string s := by
  rw [asString?, untagged_of_hasNoTags h]
  cases v <;> simp

end Value

variable {ps : List Parameter} {v x : Value} {i : Nat} {given : List (Option Value)}
  {args : List Value}

/-! ### What is supplied -/

/-- A value that is neither a sequence nor a mapping. -/
def Value.IsScalar (v : Value) : Prop := v.isSequence = false ∧ v.isMapping = false

theorem Value.not_isScalar_seq {items : List Value} : ¬(Value.seq items).IsScalar :=
  fun h => Bool.noConfusion h.1

theorem Value.not_isScalar_map {entries : List (Value × Value)} : ¬(Value.map entries).IsScalar :=
  fun h => Bool.noConfusion h.2

/-- The parameter at a place is the only one, or the only one that is required. -/
def TakesWhole (ps : List Parameter) (i : Nat) : Prop :=
  ps.length = 1 ∧ i = 0 ∨
    ps.countP (·.required) = 1 ∧ ∃ p, ps[i]? = some p ∧ p.required = true

/-- What a value gives to the parameter at a place. -/
inductive Supplies (ps : List Parameter) (v : Value) (i : Nat) : Value → Prop
  /-- A scalar is given whole, and so is anything for a single parameter. -/
  | whole (hv : v.IsScalar ∨ ps.length = 1) (hi : TakesWhole ps i) : Supplies ps v i v
  /-- A sequence gives its items by their position. -/
  | item {items : List Value} {x : Value} (hps : ps.length ≠ 1) (hv : v = .seq items)
    (hx : items[i]? = some x) : Supplies ps v i x
  /-- A mapping gives its entries to the first parameters of their names. -/
  | entry {entries : List (Value × Value)} {name : String} {x : Value} (hps : ps.length ≠ 1)
    (hv : v = .map entries) (hx : (.string name, x) ∈ entries)
    (hi : ps.findIdx? (·.name == name) = some i) : Supplies ps v i x

/-- Why a value cannot be spread over parameters. -/
inductive Unspreadable (ps : List Parameter) (v : Value) : Prop
  /-- A scalar, where there is not exactly one parameter, nor exactly one that is required. -/
  | scalar (hv : v.IsScalar) (hps : ps.length ≠ 1) (hrequired : ps.countP (·.required) ≠ 1)
  /-- A sequence with more items than there are parameters. -/
  | tooLong {items : List Value} (hps : ps.length ≠ 1) (hv : v = .seq items)
    (h : ps.length < items.length)
  /-- A mapping with a key that is the name of no parameter. -/
  | unknown {entries : List (Value × Value)} {e : Value × Value} (hps : ps.length ≠ 1)
    (hv : v = .map entries) (he : e ∈ entries) (h : ∀ p ∈ ps, e.1 ≠ .string p.name)

/-- Why a value gives no arguments. -/
inductive Misfits (ps : List Parameter) (v : Value) : Prop
  /-- It cannot be spread. -/
  | unspreadable (h : Unspreadable ps v)
  /-- There is nothing for a parameter that is required. -/
  | missing {i : Nat} {p : Parameter} (hi : ps[i]? = some p) (hp : p.required = true)
    (h : ∀ x, ¬Supplies ps v i x)
  /-- There is a value for a parameter that does not take it. -/
  | wrongKind {i : Nat} {p : Parameter} {x : Value} (hi : ps[i]? = some p) (h : Supplies ps v i x)
    (hx : p.kind.accepts x = false)

/-- Arguments for parameters are what a value supplies, or null where it supplies nothing. -/
structure Fits (ps : List Parameter) (v : Value) (args : List Value) : Prop where
  /-- There is one for each parameter. -/
  length : args.length = ps.length
  /-- Each is supplied and of the right kind, or null and left out. -/
  value : ∀ i p x, ps[i]? = some p → args[i]? = some x →
    Supplies ps v i x ∧ p.kind.accepts x = true ∨
      p.required = false ∧ x = .null ∧ ∀ y, ¬Supplies ps v i y
  /-- Everything that is supplied is passed. -/
  passed : ∀ i x, Supplies ps v i x → args[i]? = some x

/-- What is given for each parameter is what a value supplies. -/
structure Spreads (ps : List Parameter) (v : Value) (given : List (Option Value)) : Prop where
  /-- There is one place for each parameter. -/
  length : given.length = ps.length
  /-- What is supplied is in its place, and nothing else is in any. -/
  supplied : ∀ i x, given[i]? = some (some x) ↔ Supplies ps v i x

theorem Spreads.none_iff (h : Spreads ps v given) (hi : i < ps.length) :
    given[i]? = some none ↔ ∀ x, ¬Supplies ps v i x := by
  have hlt : i < given.length := h.length ▸ hi
  simp only [← h.supplied, List.getElem?_eq_getElem hlt, Option.some.injEq]
  exact Option.eq_none_iff_forall_ne_some

/-! ### Spreading a value whole -/

section Whole

variable {α : Type} {p : α → Bool} {l : List α}

/-- An item that is the only one with a property is the one that a search finds. -/
theorem exists_findIdx?_of_countP (h : l.countP p = 1) :
    ∃ j, l.findIdx? p = some j ∧ ∀ i, (∃ a, l[i]? = some a ∧ p a = true) ↔ i = j := by
  induction l with
  | nil => cases h
  | cons a l ih =>
    rw [List.findIdx?_cons]
    by_cases ha : p a = true
    · rw [List.countP_cons_of_pos ha, Nat.add_eq_right, List.countP_eq_zero] at h
      refine ⟨0, by simp [ha], fun i => ?_⟩
      cases i with
      | zero => simp [ha]
      | succ i =>
        refine ⟨?_, by simp⟩
        rintro ⟨b, hb, hpb⟩
        rw [List.getElem?_cons_succ] at hb
        exact absurd hpb (h b (List.mem_of_getElem? hb))
    · rw [List.countP_cons_of_neg ha] at h
      obtain ⟨j, hj, hiff⟩ := ih h
      refine ⟨j + 1, by simp [ha, hj], fun i => ?_⟩
      cases i with
      | zero => simp [ha]
      | succ i => simpa using hiff i

end Whole

namespace ActionMethod

variable {m : ActionMethod} {type action : String} {items : List Value}
  {entries : List (Value × Value)}

theorem mainPlace_singleton {q : Parameter} (hq : m.parameters = [q]) : m.mainPlace = 0 := by
  rw [mainPlace, hq]
  cases hrequired : q.required <;> simp [List.findIdx?_cons, hrequired]

/-- The place that takes a value whole is the one it is put to. -/
theorem takesWhole_iff (h : m.parameters.length = 1 ∨ m.requiredCount = 1) :
    TakesWhole m.parameters i ↔ i = m.mainPlace := by
  by_cases hlength : m.parameters.length = 1
  · obtain ⟨p, hp⟩ := List.length_eq_one_iff.mp hlength
    rw [mainPlace_singleton hp]
    constructor
    · rintro (⟨-, rfl⟩ | ⟨-, q, hq, -⟩)
      · rfl
      · rw [hp] at hq
        have := (List.getElem?_eq_some_iff.mp hq).1
        simpa using this
    · rintro rfl
      exact .inl ⟨hlength, rfl⟩
  · have hcount := h.resolve_left hlength
    obtain ⟨j, hj, hiff⟩ := exists_findIdx?_of_countP hcount
    rw [mainPlace, hj, Option.getD_some, ← hiff i]
    constructor
    · rintro (⟨hone, -⟩ | ⟨-, hi⟩)
      · exact absurd hone hlength
      · exact hi
    · exact fun hi => .inr ⟨hcount, hi⟩

theorem mainPlace_lt (h : m.parameters.length = 1 ∨ m.requiredCount = 1) :
    m.mainPlace < m.parameters.length := by
  rcases (takesWhole_iff h).mpr rfl with ⟨hlength, hmain⟩ | ⟨-, p, hp, -⟩
  · rw [hmain, hlength]
    exact Nat.one_pos
  · exact (List.getElem?_eq_some_iff.mp hp).1

theorem spreads_whole (hv : v.IsScalar ∨ m.parameters.length = 1)
    (h : m.parameters.length = 1 ∨ m.requiredCount = 1) :
    Spreads m.parameters v ((m.parameters.map fun _ => none).set m.mainPlace (some v)) := by
  refine ⟨by simp, fun i x => ?_⟩
  have hset : ((m.parameters.map fun _ => none).set m.mainPlace (some v))[i]? = some (some x) ↔
      i = m.mainPlace ∧ x = v := by
    rw [List.getElem?_set, List.length_map]
    by_cases hi : m.mainPlace = i
    · subst hi
      simp [mainPlace_lt h, eq_comm]
    · simp [hi, Ne.symm hi, List.getElem?_replicate]
  rw [hset, ← takesWhole_iff h]
  constructor
  · rintro ⟨hi, rfl⟩
    exact .whole hv hi
  · rintro (⟨-, hi⟩ | ⟨hps, rfl, -⟩ | ⟨hps, rfl, -, -⟩)
    · exact ⟨hi, rfl⟩
    · exact absurd hv (not_or.mpr ⟨Value.not_isScalar_seq, hps⟩)
    · exact absurd hv (not_or.mpr ⟨Value.not_isScalar_map, hps⟩)

/-! ### Spreading items -/

theorem spreads_items (hps : m.parameters.length ≠ 1) (h : items.length ≤ m.parameters.length) :
    Spreads m.parameters (.seq items)
      (items.map some ++ (m.parameters.map fun _ => none).drop items.length) := by
  refine ⟨by simp [h], fun i x => ?_⟩
  have happend : (items.map some ++ (m.parameters.map fun _ => none).drop items.length)[i]?
      = some (some x) ↔ items[i]? = some x := by
    by_cases hi : i < items.length
    · simp [List.getElem?_append, hi]
    · simp [List.getElem?_append, hi, List.getElem?_replicate]
  rw [happend]
  constructor
  · exact fun hx => .item hps rfl hx
  · rintro (⟨hv, -⟩ | ⟨-, hv, hx⟩ | ⟨-, ⟨⟩, -, -⟩)
    · exact absurd hv (not_or.mpr ⟨Value.not_isScalar_seq, hps⟩)
    · cases hv
      exact hx

/-! ### Spreading entries -/

/-- The place that an entry of a key is put to. -/
def placeOf? (m : ActionMethod) (k : Value) : Option Nat :=
  m.parameters.findIdx? (·.name == k.asString?.getD "")

theorem placeOf?_eq_some_iff (hnames : ∀ p ∈ m.parameters, p.name ≠ "") {k : Value}
    (hk : k.hasNoTags = true) : m.placeOf? k = some i ↔
      ∃ name, k = .string name ∧ m.parameters.findIdx? (·.name == name) = some i := by
  rw [placeOf?]
  constructor
  · intro h
    cases hs : k.asString? with
    | some name =>
      rw [hs] at h
      exact ⟨name, (Value.asString?_iff hk).mp hs, h⟩
    | none =>
      rw [hs, List.findIdx?_eq_some_iff_getElem] at h
      obtain ⟨hi, hname, -⟩ := h
      exact absurd (eq_of_beq hname) (hnames _ (List.getElem_mem hi))
  · rintro ⟨name, rfl, h⟩
    exact h

theorem placeOf?_eq_none_iff (hnames : ∀ p ∈ m.parameters, p.name ≠ "") {k : Value}
    (hk : k.hasNoTags = true) :
    m.placeOf? k = none ↔ ∀ p ∈ m.parameters, k ≠ .string p.name := by
  rw [placeOf?, List.findIdx?_eq_none_iff]
  refine forall₂_congr fun p hp => ?_
  rw [beq_eq_false_iff_ne, not_iff_not]
  constructor
  · intro h
    refine (Value.asString?_iff hk).mp ?_
    cases hs : k.asString? with
    | some name => rw [h, hs, Option.getD_some]
    | none =>
      rw [hs] at h
      exact absurd h (hnames p hp)
  · rintro rfl
    rfl

/-- Different keys have different places. -/
theorem placeOf?_ne (hnames : ∀ p ∈ m.parameters, p.name ≠ "") {k k' : Value}
    (hk : k.hasNoTags = true) (hk' : k'.hasNoTags = true) (hne : k.same k' = false)
    (hi : m.placeOf? k = some i) : m.placeOf? k' ≠ some i := by
  intro hi'
  obtain ⟨name, rfl, h⟩ := (placeOf?_eq_some_iff hnames hk).mp hi
  obtain ⟨name', rfl, h'⟩ := (placeOf?_eq_some_iff hnames hk').mp hi'
  obtain ⟨_, hname, -⟩ := List.findIdx?_eq_some_iff_getElem.mp h
  obtain ⟨_, hname', -⟩ := List.findIdx?_eq_some_iff_getElem.mp h'
  rw [← eq_of_beq hname, ← eq_of_beq hname', Value.same_refl] at hne
  cases hne

/-- Put one entry to its place. -/
def placed (m : ActionMethod) (given : List (Option Value)) (e : Value × Value) :
    List (Option Value) :=
  given.set ((m.placeOf? e.1).getD 0) (some e.2)

/-- Entries with places of their own are all found in these, and what no entry has a place for
stays. -/
theorem getElem?_foldl_placed (hplaced : ∀ e ∈ entries, (m.placeOf? e.1).isSome = true)
    (hapart : entries.Pairwise fun e f => m.placeOf? e.1 ≠ m.placeOf? f.1)
    (hlength : given.length = m.parameters.length) :
    (entries.foldl m.placed given)[i]? = some (some x) ↔
      (∃ e ∈ entries, m.placeOf? e.1 = some i ∧ e.2 = x) ∨
        given[i]? = some (some x) ∧ ∀ e ∈ entries, m.placeOf? e.1 ≠ some i := by
  induction entries generalizing given with
  | nil => simp
  | cons e entries ih =>
    obtain ⟨he, hrest⟩ := List.forall_mem_cons.mp hplaced
    obtain ⟨hfirst, hapart⟩ := List.pairwise_cons.mp hapart
    obtain ⟨j, hj⟩ := Option.isSome_iff_exists.mp he
    have hlt : j < given.length := by
      rw [hlength]
      exact (List.findIdx?_eq_some_iff_getElem.mp hj).1
    have hset : m.placed given e = given.set j (some e.2) := by rw [placed, hj, Option.getD_some]
    rw [List.foldl_cons, ih hrest hapart (by rw [hset, List.length_set, hlength]), hset,
      List.getElem?_set]
    by_cases hij : j = i
    · subst hij
      simp only [if_true, if_pos hlt, Option.some.injEq, List.exists_mem_cons_iff,
        List.forall_mem_cons, hj, true_and, ne_eq, not_true_eq_false, false_and, and_false,
        or_false]
      have hothers : ∀ f ∈ entries, ¬m.placeOf? f.1 = some j := fun f hf hf' =>
        hfirst f hf (hj.trans hf'.symm)
      constructor
      · rintro (⟨f, hf, hf', -⟩ | ⟨hx, -⟩)
        · exact absurd hf' (hothers f hf)
        · exact .inl hx
      · rintro (hx | ⟨f, hf, hf', -⟩)
        · exact .inr ⟨hx, hothers⟩
        · exact absurd hf' (hothers f hf)
    · simp [hij, hj]

theorem length_foldl_placed : (entries.foldl m.placed given).length = given.length := by
  induction entries generalizing given with
  | nil => rfl
  | cons e entries ih => rw [List.foldl_cons, ih, placed, List.length_set]

/-- Entries that all have places are put there. -/
theorem spreadNamed_eq_ok (action : String)
    (h : ∀ e ∈ entries, (m.placeOf? e.1).isSome = true) :
    m.spreadNamed action entries
      = .ok (entries.foldl m.placed (m.parameters.map fun _ => none)) := by
  refine Except.foldlM_eq_ok (g := m.placed) ?_ _
  rintro given ⟨k, v⟩ he
  obtain ⟨j, hj⟩ := Option.isSome_iff_exists.mp (h _ he)
  rw [placed, hj]
  rw [placeOf?] at hj
  simp only [hj, Option.getD_some]

/-- One that has none is refused. -/
theorem exists_error_spreadNamed (action : String) {e : Value × Value} (he : e ∈ entries)
    (h : m.placeOf? e.1 = none) : ∃ error, m.spreadNamed action entries = .error error := by
  rcases hspread : m.spreadNamed action entries with error | given
  · exact ⟨error, rfl⟩
  · have hplaced : ∀ e ∈ entries, (m.placeOf? e.1).isSome = true := by
      refine (Except.foldlM_brings (P := fun _ => True)
        (D := fun e _ => (m.placeOf? e.1).isSome = true) ?_ trivial hspread).2.1
      rintro given - ⟨k, v⟩ - given' hstep
      refine ⟨trivial, ?_, fun _ h => h⟩
      rw [placeOf?]
      dsimp only at hstep ⊢
      split at hstep
      · rename_i hi
        rw [hi]
        rfl
      · cases hstep
    have hsome := hplaced e he
    rw [h] at hsome
    cases hsome

theorem spreads_entries (hnames : ∀ p ∈ m.parameters, p.name ≠ "")
    (hps : m.parameters.length ≠ 1) (htags : ∀ e ∈ entries, e.1.hasNoTags = true)
    (hkeys : entries.Pairwise fun e f => e.1.same f.1 = false)
    (hplaced : ∀ e ∈ entries, (m.placeOf? e.1).isSome = true) :
    Spreads m.parameters (.map entries)
      (entries.foldl m.placed (m.parameters.map fun _ => none)) := by
  have hapart : entries.Pairwise fun e f => m.placeOf? e.1 ≠ m.placeOf? f.1 := by
    refine hkeys.imp_of_mem fun {e f} he hf hne heq => ?_
    obtain ⟨j, hj⟩ := Option.isSome_iff_exists.mp (hplaced e he)
    exact placeOf?_ne hnames (htags e he) (htags f hf) hne hj (heq ▸ hj)
  refine ⟨by rw [length_foldl_placed, List.length_map], fun i x => ?_⟩
  rw [getElem?_foldl_placed hplaced hapart (List.length_map _)]
  constructor
  · rintro (⟨⟨k, y⟩, he, hi, rfl⟩ | ⟨hnone, -⟩)
    · obtain ⟨name, rfl, hi⟩ := (placeOf?_eq_some_iff hnames (htags _ he)).mp hi
      exact .entry hps rfl he hi
    · simp [List.getElem?_replicate] at hnone
  · rintro (⟨hv, -⟩ | ⟨-, ⟨⟩, -⟩ | ⟨-, hv, hx, hi⟩)
    · exact absurd hv (not_or.mpr ⟨Value.not_isScalar_map, hps⟩)
    · cases hv
      exact .inl ⟨_, hx, (placeOf?_eq_some_iff hnames (htags _ hx)).mpr ⟨_, rfl, hi⟩, rfl⟩

/-! ### Spreading a value -/

/-- Spreading gives what a value supplies, unless it cannot be spread. -/
def SpreadsOrRefuses (m : ActionMethod) (type action : String) (v : Value) : Prop :=
  (∃ given, m.spread type action v = .ok given ∧ Spreads m.parameters v given ∧
    ¬Unspreadable m.parameters v) ∨
  (∃ error, m.spread type action v = .error error) ∧ Unspreadable m.parameters v

theorem whole_test_iff : (!(v.isSequence || v.isMapping) || m.parameters.length == 1) = true ↔
    v.IsScalar ∨ m.parameters.length = 1 := by
  simp [Value.IsScalar]

theorem whole_spreads_or_refuses (hv : v.IsScalar ∨ m.parameters.length = 1)
    (type action : String) : m.SpreadsOrRefuses type action v := by
  rw [SpreadsOrRefuses, spread.eq_def]
  dsimp only
  rw [if_pos (whole_test_iff.mpr hv)]
  by_cases hone : m.parameters.length = 1 ∨ m.requiredCount = 1
  · rw [if_neg (by simpa [imp_iff_not_or, or_comm] using hone)]
    refine .inl ⟨_, rfl, spreads_whole hv hone, ?_⟩
    rintro (⟨-, hps, hrequired⟩ | ⟨hps, rfl, -⟩ | ⟨hps, rfl, -, -⟩)
    · exact hone.elim hps hrequired
    · exact hv.elim Value.not_isScalar_seq hps
    · exact hv.elim Value.not_isScalar_map hps
  · rw [not_or] at hone
    rw [if_pos (by simpa using hone)]
    exact .inr ⟨⟨_, rfl⟩, .scalar (hv.resolve_right hone.1) hone.1 hone.2⟩

theorem items_spreads_or_refuses (hps : m.parameters.length ≠ 1) (type action : String) :
    m.SpreadsOrRefuses type action (.seq items) := by
  have hstructured : ¬((Value.seq items).IsScalar ∨ m.parameters.length = 1) :=
    not_or.mpr ⟨Value.not_isScalar_seq, hps⟩
  rw [SpreadsOrRefuses, spread, if_neg (mt whole_test_iff.mp hstructured)]
  by_cases hlength : m.parameters.length < items.length
  · rw [if_pos hlength]
    exact .inr ⟨⟨_, rfl⟩, .tooLong hps rfl hlength⟩
  · rw [if_neg hlength]
    refine .inl ⟨_, rfl, spreads_items hps (Nat.le_of_not_lt hlength), ?_⟩
    rintro (⟨hv, -, -⟩ | ⟨-, hv, h⟩ | ⟨-, ⟨⟩, -, -⟩)
    · exact Value.not_isScalar_seq hv
    · cases hv
      exact hlength h

theorem entries_spreads_or_refuses (hnames : ∀ p ∈ m.parameters, p.name ≠ "")
    (hps : m.parameters.length ≠ 1) (htags : ∀ e ∈ entries, e.1.hasNoTags = true)
    (hkeys : entries.Pairwise fun e f => e.1.same f.1 = false) (type action : String) :
    m.SpreadsOrRefuses type action (.map entries) := by
  have hstructured : ¬((Value.map entries).IsScalar ∨ m.parameters.length = 1) :=
    not_or.mpr ⟨Value.not_isScalar_map, hps⟩
  rw [SpreadsOrRefuses, spread, if_neg (mt whole_test_iff.mp hstructured)]
  by_cases hplaced : ∀ e ∈ entries, (m.placeOf? e.1).isSome = true
  · refine .inl ⟨_, spreadNamed_eq_ok action hplaced,
      spreads_entries hnames hps htags hkeys hplaced, ?_⟩
    rintro (⟨hv, -, -⟩ | ⟨-, ⟨⟩, -⟩ | ⟨-, hv, he, h⟩)
    · exact Value.not_isScalar_map hv
    · cases hv
      have hsome := hplaced _ he
      rw [(placeOf?_eq_none_iff hnames (htags _ he)).mpr h] at hsome
      cases hsome
  · push Not at hplaced
    obtain ⟨e, he, hnone⟩ := hplaced
    rw [ne_eq, Option.not_isSome_iff_eq_none] at hnone
    refine .inr ⟨exists_error_spreadNamed action he hnone, .unknown hps rfl he ?_⟩
    exact (placeOf?_eq_none_iff hnames (htags e he)).mp hnone

/-- **What spreading gives, and when it fails.** -/
theorem spreads_or_refuses (hnames : ∀ p ∈ m.parameters, p.name ≠ "") (htags : v.hasNoTags = true)
    (hv : v.isWellFormed = true) (type action : String) : m.SpreadsOrRefuses type action v := by
  by_cases hwhole : v.IsScalar ∨ m.parameters.length = 1
  · exact whole_spreads_or_refuses hwhole type action
  · obtain ⟨hscalar, hps⟩ := not_or.mp hwhole
    cases v with
    | seq items => exact items_spreads_or_refuses hps type action
    | map entries =>
      exact entries_spreads_or_refuses hnames hps
        (fun e he => (Value.haveEntriesNoTags_iff.mp htags e he).1)
        (Value.areEntriesWellFormed_iff.mp hv).2 type action
    | tagged t v => cases htags
    | _ => exact absurd ⟨rfl, rfl⟩ hscalar

/-! ### Arguments -/

theorem argument_eq_ok_iff {p : Parameter} {g : Option Value} :
    argument action p g = .ok x ↔
      g = some x ∧ p.kind.accepts x = true ∨ g = none ∧ p.required = false ∧ x = .null := by
  cases g with
  | some y =>
    rw [argument]
    split
    · rename_i hy
      constructor
      · rintro ⟨⟩
        exact .inl ⟨rfl, hy⟩
      · rintro (⟨⟨⟩, -⟩ | ⟨⟨⟩, -⟩)
        rfl
    · rename_i hy
      constructor
      · rintro ⟨⟩
      · rintro (⟨⟨⟩, hx⟩ | ⟨⟨⟩, -⟩)
        exact absurd hx hy
  | none =>
    rw [argument]
    split
    · rename_i hrequired
      constructor
      · rintro ⟨⟩
      · rintro (⟨⟨⟩, -⟩ | ⟨-, hx, -⟩)
        rw [hrequired] at hx
        cases hx
    · rename_i hrequired
      constructor
      · rintro ⟨⟩
        exact .inr ⟨rfl, Bool.eq_false_iff.mpr hrequired, rfl⟩
      · rintro (⟨⟨⟩, -⟩ | ⟨-, -, rfl⟩)
        rfl

/-- A single parameter takes the whole value. -/
theorem arguments_singleton {q : Parameter} (hq : m.parameters = [q])
    (hv : q.kind.accepts v = true) (type action : String) :
    m.arguments type action v = .ok [v] := by
  have hspread : m.spread type action v = .ok [some v] := by
    rw [spread.eq_def]
    simp [hq, mainPlace_singleton hq]
  have hargument : ∀ c ∈ [q].zip [some v], argument action c.1 c.2 = .ok v := by
    rintro c (_ | ⟨_, ⟨⟩⟩)
    exact argument_eq_ok_iff.mpr (.inl ⟨rfl, hv⟩)
  rw [arguments, hspread, hq]
  exact Except.mapM_eq_ok_map (g := fun _ => v) hargument

theorem arguments_eq_ok_iff : m.arguments type action v = .ok args ↔
    ∃ given, m.spread type action v = .ok given ∧
      (m.parameters.zip given).mapM (fun c => argument action c.1 c.2) = .ok args :=
  Except.bind_eq_ok_iff

/-- What is given for the parameters, checked, are arguments that fit. -/
theorem fits_of_spreads (hgiven : Spreads ps v given)
    (h : (ps.zip given).mapM (fun c => argument action c.1 c.2) = .ok args) : Fits ps v args := by
  have hall := Except.forall₂_of_mapM_eq_ok h
  have hlength : args.length = ps.length := by
    rw [← hall.length_eq, List.length_zip, hgiven.length, Nat.min_self]
  have hargument : ∀ {i : Nat} {p : Parameter} {g : Option Value} {x : Value}, ps[i]? = some p →
      given[i]? = some g → args[i]? = some x → argument action p g = .ok x := by
    intro i p g x hp hg hx
    obtain ⟨hi, rfl⟩ := List.getElem?_eq_some_iff.mp hx
    have hzip : (ps.zip given)[i]? = some (p, g) := List.getElem?_zip_eq_some.mpr ⟨hp, hg⟩
    obtain ⟨hi', heq⟩ := List.getElem?_eq_some_iff.mp hzip
    have hstep := (List.forall₂_iff_get.mp hall).2 i hi' hi
    rw [List.get_eq_getElem, heq] at hstep
    exact hstep
  refine ⟨hlength, fun i p x hp hx => ?_, fun i x hsupplied => ?_⟩
  · have hi := (List.getElem?_eq_some_iff.mp hp).1
    obtain ⟨g, hg⟩ : ∃ g, given[i]? = some g :=
      ⟨_, List.getElem?_eq_getElem (hgiven.length.symm ▸ hi)⟩
    rcases argument_eq_ok_iff.mp (hargument hp hg hx) with ⟨rfl, haccepts⟩ | ⟨rfl, hrequired, hnull⟩
    · exact .inl ⟨(hgiven.supplied i x).mp hg, haccepts⟩
    · exact .inr ⟨hrequired, hnull, (hgiven.none_iff hi).mp hg⟩
  · have hg := (hgiven.supplied i x).mpr hsupplied
    have hi : i < ps.length := hgiven.length ▸ (List.getElem?_eq_some_iff.mp hg).1
    have hlt : i < args.length := hlength.symm ▸ hi
    have hx : args[i]? = some args[i] := List.getElem?_eq_getElem hlt
    rcases argument_eq_ok_iff.mp (hargument (List.getElem?_eq_getElem hi) hg hx) with
      ⟨heq, -⟩ | ⟨hnone, -⟩
    · exact hx.trans heq.symm
    · cases hnone

theorem exists_argument_iff {p : Parameter} {g : Option Value} :
    (∃ x, argument action p g = .ok x) ↔
      (∀ x, g = some x → p.kind.accepts x = true) ∧ (g = none → p.required = false) := by
  simp only [argument_eq_ok_iff]
  cases g <;> simp

theorem mem_zip_of_getElem? {p : Parameter} {g : Option Value} (hp : ps[i]? = some p)
    (hg : given[i]? = some g) : (p, g) ∈ ps.zip given :=
  List.mem_of_getElem? (List.getElem?_zip_eq_some.mpr ⟨hp, hg⟩)

/-- Checking what is given succeeds unless there is a parameter that is left out or given something
that it does not take. -/
theorem exists_mapM_argument_iff (hgiven : Spreads ps v given) (hspread : ¬Unspreadable ps v)
    (action : String) :
    (∃ args, (ps.zip given).mapM (fun c => argument action c.1 c.2) = .ok args) ↔
      ¬Misfits ps v := by
  have hall : (∃ args, (ps.zip given).mapM (fun c => argument action c.1 c.2) = .ok args) ↔
      ∀ c ∈ ps.zip given, ∃ x, argument action c.1 c.2 = .ok x := by
    refine ⟨fun ⟨args, h⟩ c hc => ?_, Except.exists_mapM_eq_ok⟩
    obtain ⟨x, -, hx⟩ := Except.exists_of_mem_mapM h c hc
    exact ⟨x, hx⟩
  rw [hall]
  constructor
  · rintro hok (hbad | ⟨hp, hrequired, hnone⟩ | ⟨hp, hsupplied, hx⟩)
    · exact hspread hbad
    · have hi := (List.getElem?_eq_some_iff.mp hp).1
      have hc := mem_zip_of_getElem? hp ((hgiven.none_iff hi).mpr hnone)
      have hoptional := (exists_argument_iff.mp (hok _ hc)).2 rfl
      rw [hrequired] at hoptional
      cases hoptional
    · have hc := mem_zip_of_getElem? hp ((hgiven.supplied _ _).mpr hsupplied)
      have haccepts := (exists_argument_iff.mp (hok _ hc)).1 _ rfl
      rw [hx] at haccepts
      cases haccepts
  · rintro hfits ⟨p, g⟩ hc
    obtain ⟨i, hi⟩ := List.mem_iff_getElem?.mp hc
    obtain ⟨hp, hg⟩ := List.getElem?_zip_eq_some.mp hi
    refine exists_argument_iff.mpr ⟨?_, ?_⟩
    · rintro x rfl
      by_contra hx
      exact hfits (.wrongKind hp ((hgiven.supplied i x).mp hg) (Bool.eq_false_iff.mpr hx))
    · rintro rfl
      by_contra hrequired
      have hnone := (hgiven.none_iff (List.getElem?_eq_some_iff.mp hp).1).mp hg
      exact hfits (.missing hp (Bool.not_eq_false _ ▸ hrequired) hnone)

theorem length_spreadNamed (h : m.spreadNamed action entries = .ok given) :
    given.length = m.parameters.length := by
  refine Except.foldlM_invariant (P := fun given => given.length = m.parameters.length) ?_
    (List.length_map _) h
  rintro given hgiven ⟨k, v⟩ - given' hstep
  dsimp only at hstep
  split at hstep
  · cases hstep
    rw [List.length_set, hgiven]
  · cases hstep

theorem length_spread (h : m.spread type action v = .ok given) :
    given.length = m.parameters.length := by
  rw [spread.eq_def] at h
  dsimp only at h
  split at h
  · split at h
    · cases h
    · cases h
      rw [List.length_set, List.length_map]
  · split at h
    · split at h
      · cases h
      · rename_i items hlength
        cases h
        simp [Nat.le_of_not_lt hlength]
    · exact length_spreadNamed h
    · cases h
      exact List.length_map _

/-- There is one argument for each parameter, whatever the value is. -/
theorem length_of_arguments (h : m.arguments type action v = .ok args) :
    args.length = m.parameters.length := by
  obtain ⟨given, hspread, h⟩ := arguments_eq_ok_iff.mp h
  rw [← (Except.forall₂_of_mapM_eq_ok h).length_eq, List.length_zip, length_spread hspread,
    Nat.min_self]

/-- What the arguments are, and when there are none. -/
theorem fits_and_misfits (hnames : ∀ p ∈ m.parameters, p.name ≠ "") (htags : v.hasNoTags = true)
    (hv : v.isWellFormed = true) (type action : String) :
    (∀ args, m.arguments type action v = .ok args → Fits m.parameters v args) ∧
    ((∃ error, m.arguments type action v = .error error) ↔ Misfits m.parameters v) := by
  rcases spreads_or_refuses hnames htags hv type action with
    ⟨given, hspread, hgiven, hspreadable⟩ | ⟨⟨error, hspread⟩, hbad⟩
  · have harguments : m.arguments type action v
        = (m.parameters.zip given).mapM fun c => argument action c.1 c.2 := by
      rw [arguments, hspread]
      rfl
    have hok := exists_mapM_argument_iff hgiven hspreadable action
    rw [← harguments] at hok
    refine ⟨fun args h => fits_of_spreads hgiven (harguments.symm.trans h), ?_⟩
    rw [← not_iff_not, ← hok]
    cases m.arguments type action v <;> simp
  · have harguments : m.arguments type action v = .error error := by
      rw [arguments, hspread]
      rfl
    rw [harguments]
    refine ⟨?_, fun _ => .unspreadable hbad, fun _ => ⟨error, rfl⟩⟩
    rintro args ⟨⟩

/-! ### Methods -/

theorem valueArgument_append (hi : i < args.length) (more : List Value) :
    valueArgument (args ++ more) i = valueArgument args i := by
  rw [valueArgument, valueArgument, List.getElem?_append_left hi]

theorem stringArgument_append (hi : i < args.length) (more : List Value) :
    stringArgument (args ++ more) i = stringArgument args i := by
  rw [stringArgument, stringArgument, List.getElem?_append_left hi]

/-- The methods that every site has look at the arguments for their parameters, and at no others. -/
theorem call_append (hm : m ∈ entityMethods ++ roleMethods) (o : ConfigObject)
    (h : args.length = m.parameters.length) (more : List Value) :
    m.call o (args ++ more) = m.call o args := by
  simp only [entityMethods, roleMethods, List.cons_append, List.nil_append, List.mem_cons,
    List.not_mem_nil, or_false] at hm
  rcases hm with rfl | rfl | rfl | rfl | rfl | rfl <;>
    simp only [List.length_cons, List.length_nil] at h <;>
    simp [valueArgument_append, stringArgument_append, h]

/-- **What the arguments are, when there are none, and that no method looks for more.** -/
theorem fits_of_arguments (m : ActionMethod) (hnames : ∀ p ∈ m.parameters, p.name ≠ "")
    {v : Value} (htags : v.hasNoTags = true) (hv : v.isWellFormed = true) (type action : String) :
    (∀ args, m.arguments type action v = .ok args → Fits m.parameters v args) ∧
    ((∃ error, m.arguments type action v = .error error) ↔ Misfits m.parameters v) ∧
    ∀ table ∈ coreMethodTables, ∀ method ∈ table.methods, ∀ type action given args,
      method.arguments type action given = .ok args →
      args.length = method.parameters.length ∧
      ∀ o more, method.call o (args ++ more) = method.call o args := by
  obtain ⟨hfits, hmisfits⟩ := fits_and_misfits hnames htags hv type action
  refine ⟨hfits, hmisfits, fun table htable method hmethod type action given args h => ?_⟩
  have hcore : method ∈ entityMethods ++ roleMethods := by
    rw [coreMethodTables, List.mem_pair] at htable
    rw [List.mem_append]
    rcases htable with rfl | rfl
    · exact .inl hmethod
    · exact .inr hmethod
  have hlength := length_of_arguments h
  exact ⟨hlength, fun o more => call_append hcore o hlength more⟩

/-- A method with one parameter that is required and two that are not. -/
def placeBlock : ActionMethod where
  name := "placeBlock"
  parameters := [⟨"weight", .integer, false⟩, ⟨"region", .string, true⟩, ⟨"settings", .any, false⟩]
  call o args := .ok ((o.insertName "weight" (valueArgument args 0)).insertName "region"
    (valueArgument args 1))

/-- A text is the region, a mapping leaves the weight out, and there is no colour to give. -/
theorem fits_placeBlock :
    (∀ p ∈ placeBlock.parameters, p.name ≠ "") ∧
    Fits placeBlock.parameters (.string "left") [.null, .string "left", .null] ∧
    Fits placeBlock.parameters
      (.map [(.string "settings", .seq []), (.string "region", .string "left")])
      [.null, .string "left", .seq []] ∧
    Misfits placeBlock.parameters
      (.map [(.string "region", .string "left"), (.string "colour", .null)]) := by
  have hnames : ∀ p ∈ placeBlock.parameters, p.name ≠ "" := by decide
  have hfits : ∀ v : Value, v.hasNoTags = true → v.isWellFormed = true → ∀ args,
      placeBlock.arguments "block" "place" v = .ok args → Fits placeBlock.parameters v args :=
    fun v htags hv => (fits_of_arguments placeBlock hnames htags hv "block" "place").1
  have hmisfits := (fits_of_arguments placeBlock hnames
    (v := .map [(.string "region", .string "left"), (.string "colour", .null)]) (by decide)
    (by decide) "block" "place").2.1
  exact ⟨hnames, hfits _ rfl rfl _ rfl, hfits _ rfl (by decide) _ rfl, hmisfits.mp ⟨_, rfl⟩⟩

end ActionMethod

end Cookbook
