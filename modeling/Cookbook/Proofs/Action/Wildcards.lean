import Cookbook.Action.Registry
import Cookbook.Proofs.Action.Expressions

/-!
# What actions are run on when they are applied to wildcards

A shorthand is looked up once, with the type that owns the text of the expression. The names that a
wildcard stands for are then those in storage that start with the stem of that type; they are not
asked for their own types again. Since the text of a wildcard has something after the dot, and an
asterisk stands for at least one character, all of these names are owned by that type. But a type
with a longer stem may own them too, and then that one counts.

So an action that is applied by its shorthand may be run on objects of types it does not apply to,
just if those types are covered by the one that owns the expression.

## Main definitions

* `ActionRegistry.Runs`: an action that is run on some names when an id is applied to an expression.
* `ActionRegistry.FailsAtOnce`: no action is run then.

## Main results

* `ActionRegistry.runs_or_error`: one or the other is the case.
* `Expression.owns_of_fits`: the type that owns a wildcard owns the names it stands for.
* `ActionRegistry.owners_of_apply`: the types of the objects that an action is run on.
-/

namespace Cookbook

open Change

variable {r : ActionRegistry} {d : ActionDefinition} {types : EntityTypes} {t : EntityType}
  {id expression name : String} {names : List String} {w : Workspace}

/-! ### The names of a wildcard -/

namespace Expression

/-- A type that owns an expression owns the names that start with its stem and a dot and that the
expression stands for. -/
theorem owns_of_fits (howns : t.owns expression = true) (hfits : fits expression name = true)
    (hstart : Text.hasStart (t.stem ++ ".") name = true) : t.owns name = true := by
  obtain ⟨c, rest, hexpression⟩ := EntityType.owns_iff.mp howns
  obtain ⟨after, hafter⟩ := Option.isSome_iff_exists.mp hstart
  have hname := Text.dropStart?_eq_some_iff.mp hafter
  rw [String.toList_append, List.append_assoc] at hname
  have hlength := ((fits_iff ..).mp hfits).length_le
  rw [hexpression, hname] at hlength
  match after, hname with
  | [], _ => simp at hlength
  | c' :: rest', hname => exact EntityType.owns_iff.mpr ⟨c', rest', hname⟩

/-- Finding the names changes nothing. -/
theorem exists_outcome_names (types : EntityTypes) (expression : String) (w : Workspace) :
    ∃ found, outcome (Expression.names types expression) w = (found, w) := by
  rw [names_eq]
  split
  · exact ⟨_, rfl⟩
  · split
    · exact ⟨_, rfl⟩
    · rw [ConfigM.list, outcome_bind, ConfigM.outcome_ask]
      cases w.active.list w.files none _ <;> exact ⟨_, rfl⟩

/-- The names that an expression stands for are owned by the type that owns it. -/
theorem owns_of_names (ht : types.ownerOf? expression = some t)
    (h : outcome (Expression.names types expression) w = (.ok names, w)) :
    ∀ name ∈ names, t.owns name = true := by
  have howns := (EntityTypes.mem_of_ownerOf? ht).2
  rw [names_eq] at h
  split at h
  · cases h
    exact fun name hname => List.mem_singleton.mp hname ▸ howns
  · rw [ht] at h
    obtain ⟨listed, w', hlist, h⟩ := eq_ok_of_outcome_bind h
    rw [ConfigM.list, ConfigM.outcome_ask, Prod.mk.injEq] at hlist
    obtain ⟨all, -, hall⟩ := Except.bind_eq_ok_iff.mp hlist.1
    cases hall
    cases h
    intro name hname
    obtain ⟨hmem, hfits⟩ := List.mem_filter.mp hname
    exact owns_of_fits howns hfits (List.mem_filter.mp hmem).2

end Expression

/-! ### Applying -/

namespace ActionRegistry

/-- When an id is applied to an expression, an action is run on some names. -/
structure Runs (r : ActionRegistry) (id expression : String) (w : Workspace) (d : ActionDefinition)
    (names : List String) : Prop where
  /-- The id stands for the action. -/
  resolved : r.resolve id expression = .ok d.id
  /-- The action is registered. -/
  mem : d ∈ r.definitions
  /-- The expression stands for the names. -/
  stands : outcome (Expression.names r.entityTypes expression) w = (.ok names, w)

theorem definition?_of_mem (h : d ∈ r.definitions) : r.definition? d.id = some d := by
  rw [definition?, List.find?_eq_some_iff_append]
  obtain ⟨before, after, hdefs⟩ := List.append_of_mem h
  refine ⟨beq_self_eq_true _, before, after, hdefs, fun e he => ?_⟩
  have hdistinct := r.distinct
  rw [hdefs, List.map_append, List.nodup_append] at hdistinct
  have hne : e.id ≠ d.id :=
    hdistinct.2.2 e.id (List.mem_map_of_mem he) d.id (List.mem_map_of_mem List.mem_cons_self)
  simpa using hne

/-- What applying is: running the action on the names in turn. -/
theorem Runs.outcome_apply (h : r.Runs id expression w d names) (v : Value) :
    outcome (r.apply id expression v) w
      = outcome (names.forM fun name => d.apply r.entityTypes name v) w := by
  rw [apply, h.resolved, outcome_bind_ok (outcome_ofExcept (.ok d.id) w),
    definition?_of_mem h.mem]
  exact outcome_bind_ok h.stands

/-- When an id is applied to an expression, it cannot be looked up, or the names that the expression
stands for cannot be found. -/
inductive FailsAtOnce (r : ActionRegistry) (id expression : String) (w : Workspace) (e : Error) :
    Prop where
  /-- The id stands for no action. -/
  | resolve (h : r.resolve id expression = .error e) : FailsAtOnce r id expression w e
  /-- The names cannot be found. -/
  | names {full : String} (hfull : r.resolve id expression = .ok full)
    (h : outcome (Expression.names r.entityTypes expression) w = (.error e, w)) :
    FailsAtOnce r id expression w e

/-- What an id stands for is registered, and if it is a shorthand, it is that of an action that applies
to the type which owns the name. -/
theorem exists_of_resolve {full : String} (h : r.resolve id name = .ok full) :
    ∃ d ∈ r.definitions, d.id = full ∧ (r.contains id = false → d.shorthand = id ∧
      ∃ t, r.entityTypes.ownerOf? name = some t ∧ d.appliesTo t.id = true) := by
  rw [resolve] at h
  split at h
  · rename_i hid
    cases h
    obtain ⟨d, hd, heq⟩ := List.any_eq_true.mp hid
    refine ⟨d, hd, by simpa using heq, fun hnot => ?_⟩
    rw [hnot] at hid
    cases hid
  · split at h
    · rename_i hget
      cases h
      obtain ⟨t, ht, hget⟩ := Option.bind_eq_some_iff.mp hget
      obtain ⟨d, hd, heq⟩ := List.mem_map.mp (NameMap.mem_of_get?_ofList hget)
      obtain ⟨hmem, happ⟩ := List.mem_filter.mp hd
      obtain ⟨hshort, hid⟩ := Prod.mk.inj heq
      exact ⟨d, hmem, hid, fun _ => ⟨hshort, t, ht, happ⟩⟩
    · cases h

/-- Failing at once leaves everything as it was, whatever the value is. -/
theorem FailsAtOnce.outcome_apply {e : Error} (h : r.FailsAtOnce id expression w e) (v : Value) :
    outcome (r.apply id expression v) w = (.error e, w) := by
  cases h with
  | resolve h =>
    rw [apply, h]
    exact outcome_bind_error (outcome_ofExcept ..)
  | names hfull h =>
    obtain ⟨d, hd, rfl, -⟩ := exists_of_resolve hfull
    rw [apply, hfull, outcome_bind_ok (outcome_ofExcept ..), definition?_of_mem hd]
    exact outcome_bind_error h

/-- Applying runs an action or fails at once. -/
theorem runs_or_error (r : ActionRegistry) (id expression : String) (w : Workspace) :
    (∃ d names, r.Runs id expression w d names) ∨ ∃ e, r.FailsAtOnce id expression w e := by
  cases hresolved : r.resolve id expression with
  | error e => exact .inr ⟨e, .resolve hresolved⟩
  | ok full =>
    obtain ⟨d, hd, rfl, -⟩ := exists_of_resolve hresolved
    obtain ⟨found, hfound⟩ := Expression.exists_outcome_names r.entityTypes expression w
    cases found with
    | error e => exact .inr ⟨e, .names hresolved hfound⟩
    | ok names => exact .inl ⟨d, names, hresolved, hd, hfound⟩

/-- A shorthand stands for an action that applies to the type which owns the expression. -/
theorem Runs.exists_owner (h : r.Runs id expression w d names) (hshort : r.contains id = false) :
    ∃ t, r.entityTypes.ownerOf? expression = some t ∧ d.shorthand = id ∧
      d.appliesTo t.id = true := by
  obtain ⟨e, he, hid, howner⟩ := exists_of_resolve h.resolved
  -- No id is used twice.
  have hsame : e = d := by
    have hfound := definition?_of_mem he
    rw [hid, definition?_of_mem h.mem] at hfound
    exact (Option.some.inj hfound).symm
  obtain ⟨hshorthand, t, ht, happ⟩ := howner hshort
  exact ⟨t, ht, hsame ▸ hshorthand, hsame ▸ happ⟩

/-- **What an action is run on.** When a shorthand is applied to an expression, either this fails
at once, whatever the value is, because the shorthand cannot be looked up or the names cannot be
found, or an action with that shorthand is run on some names, one after the other; it applies to the
type that owns the expression. Each of the names is owned by that type, or by one that it covers. So
the action is run on objects of types it applies to, exactly if it applies to those of the covered
types that own one of the names. -/
theorem owners_of_apply (hshort : r.contains id = false) :
    (∃ e, r.FailsAtOnce id expression w e ∧
      ∀ v, outcome (r.apply id expression v) w = (.error e, w)) ∨
    ∃ d t names, d ∈ r.definitions ∧ d.shorthand = id ∧
      r.entityTypes.ownerOf? expression = some t ∧ d.appliesTo t.id = true ∧
      outcome (Expression.names r.entityTypes expression) w = (.ok names, w) ∧
      (∀ v, outcome (r.apply id expression v) w
        = outcome (names.forM fun name => d.apply r.entityTypes name v) w) ∧
      (∀ name ∈ names, ∃ owner, r.entityTypes.ownerOf? name = some owner ∧
        (owner = t ∨ t.Covers owner)) ∧
      ((∀ name ∈ names, ∃ owner, r.entityTypes.ownerOf? name = some owner ∧
          d.appliesTo owner.id = true) ↔
        ∀ name ∈ names, ∀ owner, r.entityTypes.ownerOf? name = some owner → t.Covers owner →
          d.appliesTo owner.id = true) := by
  rcases r.runs_or_error id expression w with ⟨d, names, hruns⟩ | ⟨e, hfails⟩
  · obtain ⟨t, ht, hd, happ⟩ := hruns.exists_owner hshort
    have howners : ∀ name ∈ names, ∃ owner, r.entityTypes.ownerOf? name = some owner ∧
        (owner = t ∨ t.Covers owner) := fun name hname =>
      EntityTypes.exists_owner_of_owns ht (Expression.owns_of_names ht hruns.stands name hname)
    refine .inr ⟨d, t, names, hruns.mem, hd, ht, happ, hruns.stands, hruns.outcome_apply, howners,
      fun h name hname owner howner _ => ?_, fun h name hname => ?_⟩
    · obtain ⟨owner', howner', happ'⟩ := h name hname
      rw [howner] at howner'
      exact Option.some.inj howner' ▸ happ'
    · obtain ⟨owner, howner, rfl | hcovers⟩ := howners name hname
      · exact ⟨owner, howner, happ⟩
      · exact ⟨owner, howner, h name hname owner howner hcovers⟩
  · exact .inl ⟨e, hfails, hfails.outcome_apply⟩

/-! ### An instance -/

/-- A type that covers another one. -/
def nestedTypes : EntityTypes :=
  (EntityTypes.register NameMap.empty ⟨"broad", "user", "user"⟩).register
    ⟨"user_role", "user.role", "user"⟩

/-- An action for the covering type. -/
def touchBroad : ActionDefinition where
  id := "touch:user:poke"
  label := ""
  entityTypes := ["broad"]
  apply _ name _ := ConfigM.write none name Mapping.empty

/-- The registry that has this action alone. -/
def touching : ActionRegistry where
  entityTypes := nestedTypes
  definitions := [touchBroad]

/-- A site with an object of the covered type. -/
def siteOfRole : Workspace where
  files := {}
  active := .memory (Snapshot.ofList [(defaultCollection, "user.role.x",
    Mapping.ofNames [("id", .string "x")])])

/-- The action is run on the object of the covered type, to which it does not apply. -/
theorem touched_of_covered : touching.contains "poke" = false ∧
    nestedTypes.ownerOf? "user.role.x" = some ⟨"user_role", "user.role", "user"⟩ ∧
    ∃ d ∈ touching.definitions, d.appliesTo "user_role" = false ∧
      ∃ names : List String, "user.role.x" ∈ names ∧
      outcome (touching.apply "poke" "user.*.x" .null) siteOfRole
        = outcome (names.forM fun name => d.apply nestedTypes name .null) siteOfRole := by
  have hnames : outcome (Expression.names nestedTypes "user.*.x") siteOfRole
      = (.ok ["user.role.x"], siteOfRole) := by
    have howner : nestedTypes.ownerOf? "user.*.x" = some ⟨"broad", "user", "user"⟩ := rfl
    refine (Expression.outcome_names_of_ownerOf? howner rfl (.memory _)).trans
      (congrArg (fun found => (Except.ok found, siteOfRole)) ?_)
    decide +kernel
  have hruns : touching.Runs "poke" "user.*.x" siteOfRole touchBroad ["user.role.x"] :=
    ⟨rfl, List.mem_singleton_self _, hnames⟩
  refine ⟨rfl, rfl, ?_⟩
  rcases @owners_of_apply touching "poke" "user.*.x" siteOfRole rfl with
    ⟨e, -, herror⟩ | ⟨d, t, names, hd, -, -, -, hstands, hrun, -⟩
  · have hfailed := herror .null
    rw [hruns.outcome_apply] at hfailed
    cases hfailed
  · rw [show touching.entityTypes = nestedTypes from rfl, hnames] at hstands
    cases hstands
    obtain rfl := List.mem_singleton.mp hd
    exact ⟨_, hd, rfl, _, List.mem_singleton_self _, hrun .null⟩

end ActionRegistry

end Cookbook
