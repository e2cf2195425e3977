import Cookbook.Proofs.Action.Arguments
import Cookbook.Proofs.Action.Untouched
import Cookbook.Proofs.NameMap
import Cookbook.Proofs.Snapshot
import Cookbook.Proofs.Value.Inserting
import Mathlib.Data.Set.Insert

/-!
# Granting and revoking the permissions of a role

Each change of the permissions reads what is stored, and it may be anything: no list at all, entries
that are no strings, a permission twice. What it stores instead is a list in order, so from the
second change on there is nothing to mend. The first one forgets what is no string, and every later
one finds just what its predecessor left.

As a set, then, the permissions change by one member at a time, and what is stored is the only list
in order with the members of the set. So whatever gives the same set gives the same object: changes
of different permissions can be made in any order.

## Main definitions

* `HoldsPermission`: a role lists a permission, among whatever else.
* `PermissionChange`: a method of roles with the text it is given.
* `PermissionChange.on`: what it does to the set of permissions.

## Main results

* `PermissionChange.foldl_made_eq`: a role after several changes.
* `ConfigM.permissions_changed`: what several changes do to a stored role.
-/

namespace Cookbook

open Change

/-- A role lists a permission, among whatever else. -/
def HoldsPermission (o : ConfigObject) (p : String) : Prop :=
  ∃ v items x, o.getName? "permissions" = some v ∧ v.asSequence? = some items ∧ x ∈ items ∧
    x.asString? = some p

/-- A method of roles with the text it is given. -/
structure PermissionChange where
  /-- The method. -/
  method : ActionMethod
  /-- The text. -/
  value : Value
  /-- Roles have two methods, to grant and to revoke. -/
  isRoleMethod : method ∈ roleMethods
  /-- Both take a text. -/
  isString : value.isString = true

variable {o : ConfigObject} {p : String} {l l' : List String}

/-! ### Lists of permissions -/

theorem mem_permissions_iff : p ∈ permissions o ↔ HoldsPermission o p := by
  rw [permissions, HoldsPermission]
  cases o.getName? "permissions" with
  | none => simp
  | some v =>
    rw [Option.bind_some]
    cases hitems : v.asSequence? with
    | none => simp [hitems]
    | some items => simp [hitems, List.mem_filterMap]

/-- What was stored is found again, in order. -/
theorem permissions_setPermissions (o : ConfigObject) (l : List String) :
    permissions (setPermissions o l) = NameMap.distinctNames l := by
  rw [permissions, setPermissions, Mapping.getName?_insertName_self]
  exact List.filterMap_map.trans (List.filterMap_some)

theorem mem_permissions_setPermissions :
    p ∈ permissions (setPermissions o l) ↔ p ∈ l := by
  rw [permissions_setPermissions, NameMap.mem_distinctNames]

/-- The stored list depends on the members alone. -/
theorem setPermissions_congr (o : ConfigObject) (h : ∀ p, p ∈ l ↔ p ∈ l') :
    setPermissions o l = setPermissions o l' := by
  rw [setPermissions, setPermissions, NameMap.distinctNames_congr h]

/-- Only the last list that was stored is left. -/
theorem setPermissions_setPermissions (o : ConfigObject) (l l' : List String) :
    setPermissions (setPermissions o l) l' = setPermissions o l' :=
  Mapping.insertName_insertName ..

namespace PermissionChange

variable {c : PermissionChange} {changes changes' : List PermissionChange} {S : Set String}

/-! ### One change -/

/-- The permission that is granted or revoked. -/
def permission (c : PermissionChange) : String := c.value.asString?.getD ""

/-- A change concerns a permission. -/
def concerns (p : String) (c : PermissionChange) : Bool := c.permission == p

/-- What the change does to the set of permissions. -/
def on (c : PermissionChange) (S : Set String) : Set String :=
  if c.method.name = "grantPermission" then insert c.permission S else S \ {c.permission}

/-- What it makes of a role. -/
def made (c : PermissionChange) (o : ConfigObject) : ConfigObject :=
  if c.method.name = "grantPermission" then grantPermission o c.permission
  else revokePermission o c.permission

/-- The change of the role of a name. -/
def apply (c : PermissionChange) (base : String) (type : EntityType) (types : EntityTypes)
    (name : String) : ConfigM Unit :=
  (c.method.definition base type).apply types name c.value

/-- Several changes of that role, one after the other. -/
def applyAll (base : String) (type : EntityType) (types : EntityTypes) (name : String)
    (changes : List PermissionChange) : ConfigM Unit :=
  changes.forM fun c => c.apply base type types name

theorem mem_on_of_not_concerns (h : c.concerns p = false) : p ∈ c.on S ↔ p ∈ S := by
  have hne : p ≠ c.permission := (beq_eq_false_iff_ne.mp h).symm
  rw [on]
  split
  · exact Set.mem_insert_iff.trans (or_iff_right hne)
  · exact (Set.mem_sdiff p).trans (and_iff_left hne)

theorem mem_on_congr {T : Set String} (h : p ∈ S ↔ p ∈ T) : p ∈ c.on S ↔ p ∈ c.on T := by
  rw [on, on]
  split
  · rw [Set.mem_insert_iff, Set.mem_insert_iff, h]
  · rw [Set.mem_sdiff, Set.mem_sdiff, h]

/-- What a change stores is the changed set. -/
theorem made_eq (c : PermissionChange) (o : ConfigObject) :
    ∃ l, c.made o = setPermissions o l ∧ ∀ p, p ∈ l ↔ p ∈ c.on {q | HoldsPermission o q} := by
  rw [made, on]
  split
  · refine ⟨_, rfl, fun p => ?_⟩
    rw [List.mem_append, List.mem_singleton, mem_permissions_iff, Set.mem_insert_iff, or_comm]
    rfl
  · refine ⟨_, rfl, fun p => ?_⟩
    rw [List.mem_filter, mem_permissions_iff, bne_iff_ne]
    rfl

theorem setOf_holdsPermission_made (c : PermissionChange) (o : ConfigObject) :
    {p | HoldsPermission (c.made o) p} = c.on {p | HoldsPermission o p} := by
  obtain ⟨l, hl, hmem⟩ := c.made_eq o
  refine Set.ext fun p => Iff.trans ?_ (hmem p)
  rw [← mem_permissions_setPermissions, ← hl]
  exact mem_permissions_iff.symm

/-! ### Several changes -/

theorem setOf_holdsPermission_foldl (changes : List PermissionChange) (o : ConfigObject) :
    {p | HoldsPermission (changes.foldl (fun o c => c.made o) o) p}
      = changes.foldl (fun S c => c.on S) {p | HoldsPermission o p} := by
  induction changes generalizing o with
  | nil => rfl
  | cons c changes ih => rw [List.foldl_cons, List.foldl_cons, ih, setOf_holdsPermission_made]

/-- A role after several changes lists the changed set and is otherwise as before. -/
theorem foldl_made_eq (hne : changes ≠ [])
    (hl : ∀ p, p ∈ l ↔ p ∈ changes.foldl (fun S c => c.on S) {q | HoldsPermission o q}) :
    changes.foldl (fun o c => c.made o) o = setPermissions o l := by
  induction changes generalizing o with
  | nil => exact absurd rfl hne
  | cons c changes ih =>
    obtain ⟨lc, hmade, hlc⟩ := c.made_eq o
    rw [List.foldl_cons] at hl ⊢
    rcases eq_or_ne changes [] with rfl | hrest
    · rw [List.foldl_nil, hmade]
      exact setPermissions_congr o fun p => (hlc p).trans (hl p).symm
    · rw [← setOf_holdsPermission_made] at hl
      rw [ih hrest hl, hmade, setPermissions_setPermissions]

/-- There is such a list. -/
theorem mem_permissions_foldl (changes : List PermissionChange) (o : ConfigObject) (p : String) :
    p ∈ permissions (changes.foldl (fun o c => c.made o) o) ↔
      p ∈ changes.foldl (fun S c => c.on S) {q | HoldsPermission o q} := by
  rw [mem_permissions_iff, ← setOf_holdsPermission_foldl]
  rfl

/-- Whether a permission is there after several changes depends on those that concern it. -/
theorem mem_foldl_on_iff (changes : List PermissionChange) (S : Set String) (p : String) :
    p ∈ changes.foldl (fun S c => c.on S) S ↔
      p ∈ (changes.filter (concerns p)).foldl (fun S c => c.on S) S := by
  -- The sets need agree on the permission only.
  have hgeneral : ∀ {S T : Set String}, (p ∈ S ↔ p ∈ T) →
      (p ∈ changes.foldl (fun S c => c.on S) S ↔
        p ∈ (changes.filter (concerns p)).foldl (fun S c => c.on S) T) := by
    induction changes with
    | nil => exact fun h => h
    | cons c changes ih =>
      intro S T h
      rw [List.foldl_cons, List.filter_cons]
      split
      · rw [List.foldl_cons]
        exact ih (mem_on_congr h)
      · rename_i hc
        exact ih ((mem_on_of_not_concerns (Bool.eq_false_iff.mpr hc)).trans h)
  exact hgeneral Iff.rfl

theorem ne_nil_of_filter_eq (h : ∀ p, changes'.filter (concerns p) = changes.filter (concerns p))
    (hne : changes ≠ []) : changes' ≠ [] := by
  rintro rfl
  obtain ⟨c, rest, rfl⟩ := List.exists_cons_of_ne_nil hne
  have hself : c.concerns c.permission = true := beq_self_eq_true _
  have hc := h c.permission
  rw [List.filter_nil, List.filter_cons_of_pos hself] at hc
  cases hc

/-- The order matters only among the changes of one permission. -/
theorem foldl_made_congr (h : ∀ p, changes'.filter (concerns p) = changes.filter (concerns p))
    (hne : changes ≠ []) :
    changes'.foldl (fun o c => c.made o) o = changes.foldl (fun o c => c.made o) o := by
  have hl := mem_permissions_foldl changes o
  rw [foldl_made_eq hne hl]
  refine foldl_made_eq (ne_nil_of_filter_eq h hne) fun p => (hl p).trans ?_
  rw [mem_foldl_on_iff changes', mem_foldl_on_iff changes, h p]

/-- Neighbours that concern different permissions can be swapped. -/
theorem filter_concerns_swap {d : PermissionChange} (h : c.permission ≠ d.permission)
    (before rest : List PermissionChange) (p : String) :
    (before ++ d :: c :: rest).filter (concerns p)
      = (before ++ c :: d :: rest).filter (concerns p) := by
  rw [List.filter_append, List.filter_append]
  congr 1
  by_cases hc : c.concerns p = true
  · have hd : ¬d.concerns p = true := fun hd => h ((eq_of_beq hc).trans (eq_of_beq hd).symm)
    rw [List.filter_cons_of_neg hd, List.filter_cons_of_pos hc, List.filter_cons_of_pos hc,
      List.filter_cons_of_neg hd]
  · rw [List.filter_cons, List.filter_cons_of_neg hc, List.filter_cons_of_neg hc, List.filter_cons]

end PermissionChange

/-! ### The methods as actions -/

namespace PermissionChange

variable {c : PermissionChange} {w : Workspace} {m : Snapshot} {name : String}

/-- Both methods take one text, need a role, and make of it what the change makes. -/
theorem method_eq (c : PermissionChange) (o : ConfigObject) :
    c.method.parameters = [⟨"permission", .string, true⟩] ∧ c.method.existing = .errorIfMissing ∧
      c.method.call o [c.value] = .ok (c.made o) := by
  have hmethod := c.isRoleMethod
  rw [roleMethods, List.mem_pair] at hmethod
  rw [made]
  rcases hmethod with hmethod | hmethod <;> rw [hmethod] <;> exact ⟨rfl, rfl, rfl⟩

/-- A role that is there is changed and saved. -/
theorem outcome_apply (hm : w.active = .memory m) (ho : m.object? defaultCollection name = some o)
    (base : String) (type : EntityType) (types : EntityTypes) :
    outcome (c.apply base type types name) w = (.ok (),
      { w with active := .memory (Storage.putObject m defaultCollection name (c.made o)) }) := by
  obtain ⟨hparameters, hexisting, hcall⟩ := c.method_eq o
  have hargs := ActionMethod.arguments_singleton hparameters c.isString type.id
    (c.method.definition base type).id
  rw [apply, Actions.outcome_method hexisting hm ho, hargs, outcome_bind_ok (outcome_ofExcept ..),
    hcall, outcome_bind_ok (outcome_ofExcept ..)]
  exact ConfigM.outcome_write hm

/-- A role after several changes, as it is stored. -/
theorem outcome_applyAll (hm : w.active = .memory m)
    (ho : m.object? defaultCollection name = some o) (base : String) (type : EntityType)
    (types : EntityTypes) (changes : List PermissionChange) :
    outcome (applyAll base type types name changes) w = (.ok (),
      { w with active := .memory (Storage.putObject m defaultCollection name
        (changes.foldl (fun o c => c.made o) o)) }) := by
  rw [applyAll]
  induction changes generalizing w m o with
  | nil =>
    rw [List.foldl_nil, Snapshot.putObject_object? ho, ← hm]
    rfl
  | cons c changes ih =>
    have hstored := Snapshot.object?_putObject m defaultCollection name (c.made o)
      defaultCollection name
    rw [if_pos ⟨rfl, rfl⟩] at hstored
    rw [outcome_forM_cons, outcome_apply hm ho]
    dsimp only
    rw [ih rfl hstored, Snapshot.putObject_putObject]
    rfl

end PermissionChange

/-- **What several changes of its permissions do to a stored role.** They succeed. The permissions
are then a list of texts in ascending order; as a set they are what the changes, one after the
other, make of the permissions that were there among whatever else was. All other keys have what
they had. In another order the same changes store the same role, if changes of one permission keep
their order. -/
theorem ConfigM.permissions_changed {w : Workspace} {m : Snapshot} {name : String}
    {o : ConfigObject} (hm : w.active = .memory m)
    (ho : m.object? defaultCollection name = some o) (base : String) (type : EntityType)
    (types : EntityTypes) {changes : List PermissionChange} (hne : changes ≠ []) :
    ∃ (o' : ConfigObject) (ps : List String),
      outcome (PermissionChange.applyAll base type types name changes) w = (.ok (),
        { w with active := .memory (Storage.putObject m defaultCollection name o') }) ∧
      o'.getName? "permissions" = some (.seq (ps.map .string)) ∧ ps.Pairwise (· < ·) ∧
      (∀ p, p ∈ ps ↔ p ∈ changes.foldl (fun S c => c.on S) {q | HoldsPermission o q}) ∧
      (∀ k, k ≠ .string "permissions" → o'.get? k = o.get? k) ∧
      ∀ changes' : List PermissionChange,
        (∀ p, changes'.filter (·.concerns p) = changes.filter (·.concerns p)) →
        outcome (PermissionChange.applyAll base type types name changes') w
          = outcome (PermissionChange.applyAll base type types name changes) w := by
  obtain ⟨l, hl⟩ : ∃ l : List String, ∀ p, p ∈ l ↔
      p ∈ changes.foldl (fun S c => c.on S) {q | HoldsPermission o q} :=
    ⟨_, PermissionChange.mem_permissions_foldl changes o⟩
  have hstored := PermissionChange.outcome_applyAll hm ho base type types
  refine ⟨setPermissions o l, NameMap.distinctNames l, ?_, Mapping.getName?_insertName_self ..,
    NameMap.ascending _, fun p => NameMap.mem_distinctNames.trans (hl p),
    fun k hk => Mapping.get?_insertName_of_ne hk, fun changes' h => ?_⟩
  · rw [hstored, PermissionChange.foldl_made_eq hne hl]
  · rw [hstored, hstored, PermissionChange.foldl_made_congr h hne]

/-- Grant a permission. -/
def PermissionChange.grant (p : String) : PermissionChange where
  method := roleMethods.get ⟨0, by decide⟩
  value := .string p
  isRoleMethod := List.get_mem ..
  isString := rfl

/-- Revoke a permission. -/
def PermissionChange.revoke (p : String) : PermissionChange where
  method := roleMethods.get ⟨1, by decide⟩
  value := .string p
  isRoleMethod := List.get_mem ..
  isString := rfl

/-- A role with a list that is not in order, has a permission twice and a number. -/
def editorRole : ConfigObject := Mapping.ofNames [("id", .string "editor"),
  ("permissions", .seq [.string "view", .int 3, .string "edit", .string "edit"])]

example : permissions editorRole = ["view", "edit", "edit"] ∧
    permissions ((PermissionChange.grant "admin").made editorRole) = ["admin", "edit", "view"] := by
  decide

/-- What is stored at a site with that role. -/
def editorSnapshot : Snapshot := .ofList [(defaultCollection, "user.role.editor", editorRole)]

/-- That site. -/
def editorSite : Workspace where
  files := {}
  active := .memory editorSnapshot

/-- Changes of that role. -/
def changeEditor : List PermissionChange → ConfigM Unit :=
  PermissionChange.applyAll "entity_method" ⟨"user_role", "user.role", "user"⟩ .empty
    "user.role.editor"

/-- What was there twice and no text is mended, and granting one permission and revoking another can
be swapped. -/
theorem ConfigM.permissions_changed_editor :
    ∃ (o' : ConfigObject) (ps : List String),
      outcome (changeEditor [.grant "admin", .revoke "view"]) editorSite = (.ok (),
        { files := {}, active :=
          .memory (Storage.putObject editorSnapshot defaultCollection "user.role.editor" o') }) ∧
      o'.getName? "permissions" = some (.seq (ps.map .string)) ∧ ps.Pairwise (· < ·) ∧
      "admin" ∈ ps ∧ "view" ∉ ps ∧ o'.get? (.string "id") = some (.string "editor") ∧
      outcome (changeEditor [.revoke "view", .grant "admin"]) editorSite
        = outcome (changeEditor [.grant "admin", .revoke "view"]) editorSite := by
  have ho : editorSnapshot.object? defaultCollection "user.role.editor" = some editorRole := rfl
  have hne : [PermissionChange.grant "admin", .revoke "view"] ≠ [] := List.cons_ne_nil _ _
  obtain ⟨o', ps, houtcome, hpermissions, hps, hmem, hothers, hswap⟩ :=
    permissions_changed (w := editorSite) rfl ho "entity_method"
      ⟨"user_role", "user.role", "user"⟩ .empty hne
  refine ⟨o', ps, houtcome, hpermissions, hps, ?_, ?_, ?_, ?_⟩
  · rw [hmem]
    exact ⟨.inl rfl, by decide⟩
  · rw [hmem]
    exact fun h => h.2 rfl
  · exact (hothers _ (fun h => absurd (Value.string.inj h) (by decide))).trans rfl
  · exact hswap _ (PermissionChange.filter_concerns_swap (by decide) [] [])

end Cookbook
