import Cookbook.Proofs.Action.Core
import Cookbook.Proofs.NameMap
import Mathlib.Data.List.Nodup
import Mathlib.Data.List.Pairwise

/-!
# Shorthands stand for one action each

A shorthand says which action is meant only together with an entity type, and registering refuses an
action whose shorthand is taken for a type it applies to. The check goes through pairs of entries of
two lists, where an entry may stand for every type. It finds something just if some type is in both
lists, so two actions that it lets pass have no type in common, whatever that type is. That is the
invariant of `ActionRegistry.Clear`, and every registration keeps it, those that fail half-way
through a table of methods too.

## Main definitions

* `Registration`: a call that registers an action or the methods of a table.
* `ActionRegistry.after`: the registry after some calls.
* `ActionRegistry.StandsFor`: a shorthand stands for an action with an entity type.
* `ActionRegistry.Clear`: actions with the same shorthand have no entity type in common.

## Main results

* `ActionDefinition.sharedType?_eq_none_iff`: the check compares all types.
* `ActionRegistry.Clear.after`: calls keep a registry clear.
* `ActionRegistry.shorthands_after`: what shorthands stand for after any calls, and what ids are
  resolved to.
-/

namespace Cookbook

variable {d e : ActionDefinition} {r r' : ActionRegistry} {t short id name full : String}

/-! ### Types in common -/

namespace ActionDefinition

theorem appliesTo_iff :
    d.appliesTo t = true ↔ t ∈ d.entityTypes ∨ allEntityTypes ∈ d.entityTypes := by
  simp only [appliesTo, List.any_eq_true, Bool.or_eq_true, beq_iff_eq]
  constructor
  · rintro ⟨s, hs, rfl | rfl⟩
    · exact .inl hs
    · exact .inr hs
  · rintro (h | h)
    · exact ⟨t, h, .inl rfl⟩
    · exact ⟨allEntityTypes, h, .inr rfl⟩

theorem commonType?_eq_none_iff {mine theirs : String} :
    commonType? mine theirs = none
      ↔ mine ≠ theirs ∧ mine ≠ allEntityTypes ∧ theirs ≠ allEntityTypes := by
  rw [commonType?]
  split
  · simp_all
  · split <;> simp_all

/-- The check for a common entity type misses none. -/
theorem sharedType?_eq_none_iff :
    d.sharedType? e = none ↔ ∀ t, ¬ (d.appliesTo t = true ∧ e.appliesTo t = true) := by
  simp only [sharedType?, List.findSome?_eq_none_iff, commonType?_eq_none_iff, appliesTo_iff]
  constructor
  · rintro h t ⟨hd | hd, he | he⟩
    · exact (h t hd t he).1 rfl
    · exact (h t hd _ he).2.2 rfl
    · exact (h _ hd t he).2.1 rfl
    · exact (h _ hd _ he).1 rfl
  · rintro h mine hd theirs he
    refine ⟨?_, ?_, ?_⟩
    · rintro rfl
      exact h mine ⟨.inl hd, .inl he⟩
    · rintro rfl
      exact h theirs ⟨.inr hd, .inl he⟩
    · rintro rfl
      exact h mine ⟨.inl hd, .inr he⟩

/-- If two actions have the same shorthand, then no entity type in common. -/
def Apart (d e : ActionDefinition) : Prop :=
  d.shorthand = e.shorthand → ∀ t, ¬ (d.appliesTo t = true ∧ e.appliesTo t = true)

instance : Std.Symm Apart where
  symm _ _ h hshort t hboth := h hshort.symm t hboth.symm

end ActionDefinition

/-! ### Registering -/

/-- A call that registers actions. -/
inductive Registration where
  /-- Register an action. -/
  | action (d : ActionDefinition)
  /-- Register the actions of a method table. -/
  | methods (t : MethodTable)

/-- The actions that a call is to register. -/
def Registration.requested (types : EntityTypes) : Registration → List ActionDefinition
  | action d => [d]
  | methods t => t.definitions types

namespace ActionRegistry

/-- Make a call; one that fails leaves what it registered before. -/
def perform (r : ActionRegistry) : Registration → Except Error Unit × ActionRegistry
  | .action d =>
    match r.register d with
    | .ok r' => (.ok (), r')
    | .error e => (.error e, r)
  | .methods t => r.registerMethods t

/-- The registry after some calls. -/
def after (r : ActionRegistry) (calls : List Registration) : ActionRegistry :=
  calls.foldl (fun r c => (r.perform c).2) r

/-- A shorthand stands for a registered action when it is used with an entity type. -/
def StandsFor (r : ActionRegistry) (short t : String) (d : ActionDefinition) : Prop :=
  d ∈ r.definitions ∧ d.shorthand = short ∧ d.appliesTo t = true

/-- Actions with the same shorthand have no entity type in common. -/
def Clear (r : ActionRegistry) : Prop := r.definitions.Pairwise ActionDefinition.Apart

theorem contains_iff : r.contains id = true ↔ id ∈ r.definitions.map (·.id) := by
  simp [contains]

theorem conflict?_eq_none (h : r.conflict? d = none) :
    ∀ e ∈ r.definitions, e.shorthand = d.shorthand → e.sharedType? d = none := by
  intro e he hshort
  rw [conflict?] at h
  split at h
  · cases h
  · have := List.findSome?_eq_none_iff.mp h e he
    rwa [if_pos hshort, Option.map_eq_none_iff] at this

/-- What it takes to register an action, and what it leads to. -/
theorem register_eq_ok (h : r.register d = .ok r') :
    r.conflict? d = none ∧ r'.entityTypes = r.entityTypes
      ∧ r'.definitions = r.definitions ++ [d] := by
  rw [register] at h
  split at h
  · cases h
  · rename_i hnone
    cases h
    exact ⟨hnone, rfl, rfl⟩

theorem Clear.register (h : r.Clear) (hr : r.register d = .ok r') : r'.Clear := by
  obtain ⟨hnone, -, hdefs⟩ := register_eq_ok hr
  rw [Clear, hdefs, List.pairwise_append]
  refine ⟨h, List.pairwise_singleton .., fun e he d' hd' hshort => ?_⟩
  obtain rfl := List.mem_singleton.mp hd'
  exact ActionDefinition.sharedType?_eq_none_iff.mp (conflict?_eq_none hnone e he hshort)

theorem Clear.registerAll (h : r.Clear) (l : List ActionDefinition) :
    (r.registerAll l).2.Clear := by
  induction l generalizing r with
  | nil => exact h
  | cons d l ih =>
    rw [ActionRegistry.registerAll]
    split
    · exact h
    · rename_i hr
      exact ih (h.register hr)

/-- Registering actions one after the other adds the first of them, all if nothing fails. -/
theorem exists_of_registerAll (r : ActionRegistry) (l : List ActionDefinition) :
    ∃ taken, taken <+: l ∧ (r.registerAll l).2.definitions = r.definitions ++ taken
      ∧ ((r.registerAll l).1 = .ok () → taken = l)
      ∧ (r.registerAll l).2.entityTypes = r.entityTypes := by
  induction l generalizing r with
  | nil => exact ⟨[], List.nil_prefix, by simp [registerAll], fun _ => rfl, rfl⟩
  | cons d l ih =>
    rw [registerAll]
    split
    · refine ⟨[], List.nil_prefix, by simp, ?_, rfl⟩
      rintro ⟨⟩
    · rename_i r' hr'
      obtain ⟨-, htypes, hdefs⟩ := register_eq_ok hr'
      obtain ⟨taken, hprefix, htaken, hall, htypes'⟩ := ih r'
      refine ⟨d :: taken, List.cons_prefix_cons.mpr ⟨rfl, hprefix⟩, ?_, ?_, ?_⟩
      · rw [htaken, hdefs, List.append_assoc, List.singleton_append]
      · exact fun h => by rw [hall h]
      · rw [htypes', htypes]

/-- Each call registers some actions one after the other. -/
theorem perform_eq_registerAll (r : ActionRegistry) (c : Registration) :
    r.perform c = r.registerAll (c.requested r.entityTypes) := by
  cases c with
  | action d =>
    rw [perform, Registration.requested, registerAll]
    split <;> simp_all [registerAll]
  | methods t => rfl

/-! ### After any calls -/

theorem entityTypes_perform (r : ActionRegistry) (c : Registration) :
    (r.perform c).2.entityTypes = r.entityTypes := by
  rw [perform_eq_registerAll]
  obtain ⟨-, -, -, -, h⟩ := exists_of_registerAll r (c.requested r.entityTypes)
  exact h

theorem entityTypes_after (r : ActionRegistry) (calls : List Registration) :
    (r.after calls).entityTypes = r.entityTypes := by
  induction calls generalizing r with
  | nil => rfl
  | cons c calls ih => exact (ih (r.perform c).2).trans (entityTypes_perform r c)

/-- Calls, failing ones included, keep shorthands clear. -/
theorem Clear.after (h : r.Clear) (calls : List Registration) : (r.after calls).Clear := by
  induction calls generalizing r with
  | nil => exact h
  | cons c calls ih =>
    have hstep : (r.perform c).2.Clear := by
      rw [perform_eq_registerAll]
      exact h.registerAll _
    exact ih hstep

/-- Nothing that is registered is lost, and all that is added was asked for, in that order. -/
theorem exists_of_after (r : ActionRegistry) (calls : List Registration) :
    ∃ taken, (r.after calls).definitions = r.definitions ++ taken
      ∧ taken.Sublist (calls.flatMap (·.requested r.entityTypes)) := by
  induction calls generalizing r with
  | nil => exact ⟨[], by simp [after], List.Sublist.refl _⟩
  | cons c calls ih =>
    obtain ⟨first, hprefix, hfirst, -⟩ := exists_of_registerAll r (c.requested r.entityTypes)
    rw [← perform_eq_registerAll] at hfirst
    obtain ⟨rest, hrest, hsub⟩ := ih (r.perform c).2
    rw [entityTypes_perform] at hsub
    refine ⟨first ++ rest, ?_, ?_⟩
    · rw [← List.append_assoc, ← hfirst]
      exact hrest
    · rw [List.flatMap_cons]
      exact hprefix.sublist.append hsub

/-- What a call that succeeds was to register stays registered. -/
theorem mem_after_of_perform {before rest : List Registration} {c : Registration}
    (h : ((r.after before).perform c).1 = .ok ()) (hd : d ∈ c.requested r.entityTypes) :
    d ∈ (r.after (before ++ c :: rest)).definitions := by
  have hsplit : r.after (before ++ c :: rest) = ((r.after before).perform c).2.after rest := by
    simp [after]
  rw [perform_eq_registerAll, entityTypes_after] at h
  obtain ⟨taken, -, hdefs, hall, -⟩ := exists_of_registerAll (r.after before)
    (c.requested r.entityTypes)
  obtain ⟨more, hmore, -⟩ := exists_of_after ((r.after before).perform c).2 rest
  rw [hsplit, hmore, perform_eq_registerAll, entityTypes_after, hdefs, hall h]
  simp [hd]

/-! ### What shorthands stand for -/

/-- In a clear registry a shorthand stands for at most one action. -/
theorem StandsFor.unique (h : r.Clear) (hd : r.StandsFor short t d)
    (he : r.StandsFor short t e) : d = e := by
  by_contra hne
  have hapart : d.Apart e := h.forall hd.1 he.1 hne
  exact hapart (hd.2.1.trans he.2.1.symm) t ⟨hd.2.2, he.2.2⟩

/-- The shorthands of the actions that apply to a type differ. -/
theorem Clear.nodup_shorthands (h : r.Clear) (t : String) :
    ((r.definitions.filter (·.appliesTo t)).map (·.shorthand)).Nodup := by
  rw [List.Nodup, List.pairwise_map, List.pairwise_filter]
  refine h.imp fun hclear hd he hshort => ?_
  exact hclear hshort t ⟨hd, he⟩

theorem Clear.size_shorthands (h : r.Clear) (t : String) :
    (r.shorthands t).size = r.definitions.countP (·.appliesTo t) := by
  have hnodup := h.nodup_shorthands t
  rw [shorthands, NameMap.size_ofList, List.length_map, List.countP_eq_length_filter]
  simpa [Function.comp_def] using hnodup

/-- The entries of a type's shorthands are what they stand for. -/
theorem Clear.get?_shorthands (h : r.Clear) :
    (r.shorthands t).get? short = some full ↔ ∃ d, r.StandsFor short t d ∧ d.id = full := by
  constructor
  · intro hget
    obtain ⟨d, hd, heq⟩ := List.mem_map.mp (NameMap.mem_of_get?_ofList hget)
    obtain ⟨hmem, happ⟩ := List.mem_filter.mp hd
    obtain ⟨rfl, rfl⟩ := Prod.mk.inj heq
    exact ⟨d, ⟨hmem, rfl, happ⟩, rfl⟩
  · rintro ⟨d, hd, rfl⟩
    refine NameMap.get?_ofList_of_mem ?_ ?_
    · obtain ⟨hmem, rfl, happ⟩ := hd
      exact List.mem_map.mpr ⟨d, List.mem_filter.mpr ⟨hmem, happ⟩, rfl⟩
    · intro id hid
      obtain ⟨e, he, heq⟩ := List.mem_map.mp hid
      obtain ⟨hmem, happ⟩ := List.mem_filter.mp he
      obtain ⟨hshort, rfl⟩ := Prod.mk.inj heq
      rw [StandsFor.unique h ⟨hmem, hshort, happ⟩ hd]

theorem Clear.resolve_eq_ok (h : r.Clear) :
    r.resolve id name = .ok full ↔
      r.contains id = true ∧ full = id ∨
      r.contains id = false ∧ ∃ owner d, r.entityTypes.ownerOf? name = some owner
        ∧ r.StandsFor id owner.id d ∧ d.id = full := by
  rw [resolve]
  split
  · rename_i hid
    simp [hid, eq_comm]
  · rename_i hid
    have hid : r.contains id = false := Bool.eq_false_iff.mpr hid
    cases howner : r.entityTypes.ownerOf? name with
    | none => simp [hid]
    | some owner =>
      rw [Option.bind_some]
      cases hget : (r.shorthands owner.id).get? id with
      | none =>
        have hnone : ¬ ∃ d, r.StandsFor id owner.id d ∧ d.id = full := by
          rw [← h.get?_shorthands, hget]
          simp
        simpa [hid] using hnone
      | some found =>
        have hsome : found = full ↔ ∃ d, r.StandsFor id owner.id d ∧ d.id = full := by
          rw [← h.get?_shorthands, hget, Option.some.injEq]
        simpa [hid] using hsome

theorem resolve_eq_error {err : Error} (h : r.resolve id name = .error err) :
    err = .actionNotFound id := by
  rw [resolve] at h
  split at h
  · cases h
  · split at h
    · cases h
    · cases h
      rfl

/-- **What registering leads to.** After any calls, failing ones included, the registration order
has what was asked for by the calls that succeeded, each id once; a shorthand stands for at most one
action with each entity type; and an id is resolved to itself or to the one action that it stands
for with the type that owns the name. -/
theorem shorthands_after (types : EntityTypes) (calls : List Registration) :
    let start : ActionRegistry := { entityTypes := types }
    let r := start.after calls
    (r.definitions.Sublist (calls.flatMap (·.requested types))
      ∧ (∀ before c rest, calls = before ++ c :: rest →
          ((start.after before).perform c).1 = .ok () →
          ∀ d ∈ c.requested types, d ∈ r.definitions)
      ∧ ∀ id, (r.definitions.map (·.id)).count id = if r.contains id then 1 else 0)
    ∧ (∀ t, (∀ short d e, r.StandsFor short t d → r.StandsFor short t e → d = e)
      ∧ (r.shorthands t).size = r.definitions.countP (·.appliesTo t)
      ∧ ∀ short full, (r.shorthands t).get? short = some full
          ↔ ∃ d, r.StandsFor short t d ∧ d.id = full)
    ∧ ∀ id name,
      (∀ full, r.resolve id name = .ok full ↔
        r.contains id = true ∧ full = id ∨
        r.contains id = false ∧ ∃ owner d, types.ownerOf? name = some owner
          ∧ r.StandsFor id owner.id d ∧ d.id = full)
      ∧ ∀ err, r.resolve id name = .error err → err = .actionNotFound id := by
  intro start r
  have hclear : r.Clear := Clear.after (r := start) List.Pairwise.nil calls
  have htypes : r.entityTypes = types := entityTypes_after start calls
  refine ⟨⟨?_, ?_, ?_⟩, fun t => ⟨?_, hclear.size_shorthands t, ?_⟩, fun id name => ⟨?_, ?_⟩⟩
  · obtain ⟨taken, hdefs, hsub⟩ := exists_of_after start calls
    exact hdefs ▸ hsub
  · rintro before c rest hcalls hok d hd
    rw [show r = start.after (before ++ c :: rest) from congrArg start.after hcalls]
    exact mem_after_of_perform (r := start) hok hd
  · intro id
    split
    · rename_i hid
      exact List.count_eq_one_of_mem r.distinct (contains_iff.mp hid)
    · rename_i hid
      exact List.count_eq_zero.mpr fun hmem => hid (contains_iff.mpr hmem)
  · exact fun _ _ _ hd he => StandsFor.unique hclear hd he
  · exact fun _ _ => hclear.get?_shorthands
  · exact fun _ => htypes ▸ hclear.resolve_eq_ok
  · exact fun _ => resolve_eq_error

end ActionRegistry

end Cookbook
