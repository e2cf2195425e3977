import Cookbook.Proofs.Action.Resolving
import Cookbook.Proofs.Action.Wildcards
import Cookbook.Site
import Mathlib.Data.List.Nodup

/-!
# What every site offers

The actions that every site has are registered when it is opened, and each is checked against all
that were registered before it. What could be in the way are ids and shorthands. The id of a method
for an entity type is put together of a first part, the stem of the type and the name of the method,
with a separator between them. Stems may have separators in them too, but names of methods have
none. So the last separator in an id tells the name, and with it the stem: ids are different if the
stems of the types are. The name is also the shorthand, which is taken by other methods only for
other types.

So nothing is refused if no two types have the same stem and none has the id that stands for all
types. Then for each type there are the shorthands of its own methods and of creating entities, and
no others; and as none of them is a full id, they stand for just these actions.

## Main definitions

* `EntityTypes.ofList`: the types of a list, registered one after the other.
* `EntityTypes.Separate`: no two types have the same stem, and none stands for all.
* `EntityType.shorthands`: the shorthands for a type, with the ids that they stand for.
* `ActionRegistry.Offers`: what can be done with the entities of a type.

## Main results

* `ActionRegistry.registerAll_eq_ok`: actions that fit together can be registered.
* `ActionRegistry.exists_core`: the actions that every site has can be registered.
* `ActionRegistry.offers_of_separate`: what every site offers, and that there is one.
-/

namespace Cookbook

/-! ### Types -/

namespace EntityTypes

variable {ts : EntityTypes} {t u : EntityType}

/-- The types of a list, registered one after the other. -/
def ofList (l : List EntityType) : EntityTypes := l.foldl register NameMap.empty

/-- Every type is listed under its id. -/
def Keyed (ts : EntityTypes) : Prop := ∀ id t, ts.get? id = some t → t.id = id

/-- No two types have the same stem, and none has the id that stands for all types. -/
structure Separate (ts : EntityTypes) : Prop where
  /-- The stems are different. -/
  stems : (ts.values.map (·.stem)).Nodup
  /-- No type stands for all. -/
  notAll : ∀ t ∈ ts.values, t.id ≠ allEntityTypes

theorem keyed_ofList (l : List EntityType) : (ofList l).Keyed := by
  suffices h : ∀ ts : EntityTypes, ts.Keyed → (l.foldl register ts).Keyed by
    refine h NameMap.empty fun id t ht => ?_
    cases ht
  induction l with
  | nil => exact fun ts hts => hts
  | cons u l ih =>
    refine fun ts hts => ih _ fun id t ht => ?_
    rw [register, NameMap.get?_insert] at ht
    split at ht
    · rename_i hid
      cases ht
      exact hid
    · exact hts id t ht

namespace Keyed

variable (h : ts.Keyed)

include h

theorem mem_values_iff : t ∈ ts.values ↔ ts.get? t.id = some t := by
  constructor
  · intro ht
    obtain ⟨⟨id, u⟩, hmem, rfl⟩ := List.mem_map.mp ht
    have hget := NameMap.mem_entries_iff.mp hmem
    rwa [h id u hget]
  · exact fun ht => List.mem_map.mpr ⟨(t.id, t), NameMap.mem_entries_iff.mpr ht, rfl⟩

/-- A type is known by its id. -/
theorem eq_of_id_eq (ht : t ∈ ts.values) (hu : u ∈ ts.values) (hid : t.id = u.id) : t = u := by
  rw [h.mem_values_iff] at ht hu
  exact Option.some.inj ((hid ▸ ht).symm.trans hu)

theorem mem_toList_get?_iff {id : String} :
    t ∈ (ts.get? id).toList ↔ t ∈ ts.values ∧ t.id = id := by
  rw [Option.mem_toList, h.mem_values_iff]
  constructor
  · intro ht
    have hid := h id t ht
    exact ⟨hid ▸ ht, hid⟩
  · rintro ⟨ht, rfl⟩
    exact ht

theorem nodup_ids : (ts.values.map (·.id)).Nodup := by
  have hnames : ts.values.map (·.id) = ts.names := by
    rw [NameMap.values, NameMap.names, List.map_map]
    refine List.map_congr_left fun e he => ?_
    exact h e.1 e.2 (NameMap.mem_entries_iff.mp he)
  rw [hnames]
  exact NameMap.nodup_names ts

end Keyed

end EntityTypes

/-- The types of a catalog are registered one after the other. -/
theorem Catalog.exists_entityTypes_eq (catalog : Catalog) :
    ∃ l, catalog.entityTypes = EntityTypes.ofList l := by
  refine ⟨catalog.values.flatMap fun x => x.entityTypes.entries.map fun e => ⟨e.1, e.2, x.name⟩, ?_⟩
  rw [EntityTypes.ofList, List.foldl_flatMap, Catalog.entityTypes]
  simp only [List.foldl_map]

/-! ### Actions that fit together -/

namespace ActionDefinition

variable {d e : ActionDefinition}

/-- Two actions can be registered together. -/
def Fits (d e : ActionDefinition) : Prop := d.id ≠ e.id ∧ d.Apart e

theorem fits_of_shorthand_ne (h : d.shorthand ≠ e.shorthand) : d.Fits e :=
  ⟨fun hid => h (congrArg (Text.afterLast ':') hid), fun hshort => absurd hshort h⟩

end ActionDefinition

namespace ActionRegistry

variable {r : ActionRegistry} {d : ActionDefinition} {l : List ActionDefinition}

theorem conflict?_eq_none_of_fits (h : ∀ e ∈ r.definitions, e.Fits d) : r.conflict? d = none := by
  have hnew : r.contains d.id = false := by
    rw [← Bool.not_eq_true, contains_iff]
    intro hmem
    obtain ⟨e, he, hid⟩ := List.mem_map.mp hmem
    exact (h e he).1 hid
  rw [conflict?, hnew, if_neg Bool.false_ne_true, List.findSome?_eq_none_iff]
  intro e he
  split
  · rename_i hshort
    rw [ActionDefinition.sharedType?_eq_none_iff.mpr ((h e he).2 hshort)]
    rfl
  · rfl

theorem exists_register (h : r.conflict? d = none) : ∃ r', r.register d = .ok r' := by
  rw [register]
  split
  · rename_i hsome
    rw [h] at hsome
    cases hsome
  · exact ⟨_, rfl⟩

/-- Actions that fit together, and to those there are, can be registered. -/
theorem registerAll_eq_ok (h : (r.definitions ++ l).Pairwise ActionDefinition.Fits) :
    ∃ r', r.registerAll l = (.ok (), r') ∧ r'.definitions = r.definitions ++ l ∧
      r'.entityTypes = r.entityTypes := by
  induction l generalizing r with
  | nil => exact ⟨r, rfl, (List.append_nil _).symm, rfl⟩
  | cons d l ih =>
    have hfits : ∀ e ∈ r.definitions, e.Fits d :=
      fun e he => (List.pairwise_append.mp h).2.2 e he d List.mem_cons_self
    obtain ⟨r', hr'⟩ := exists_register (conflict?_eq_none_of_fits hfits)
    obtain ⟨-, htypes, hdefs⟩ := register_eq_ok hr'
    have hsplit : r'.definitions ++ l = r.definitions ++ d :: l := by
      rw [hdefs, List.append_assoc, List.singleton_append]
    obtain ⟨r'', hr'', hdefs'', htypes''⟩ := ih (hsplit ▸ h)
    rw [registerAll, hr']
    exact ⟨r'', hr'', hdefs''.trans hsplit, htypes''.trans htypes⟩

end ActionRegistry

/-! ### Methods -/

/-- What follows the last separator, if it has none itself. -/
theorem Text.afterLast_append {sep : Char} {s : String} (hs : sep ∉ s.toList) (p : String) :
    afterLast sep (p ++ String.singleton sep ++ s) = s := by
  have hpass : ∀ c ∈ s.toList.reverse, (c != sep) = true := fun c hc =>
    bne_iff_ne.mpr fun heq => hs (heq ▸ List.mem_reverse.mp hc)
  have hchars : (p ++ String.singleton sep ++ s).toList.reverse
      = s.toList.reverse ++ sep :: p.toList.reverse := by
    simp
  rw [afterLast, hchars, List.takeWhile_append_of_pos hpass, List.takeWhile_cons_of_neg (by simp),
    List.append_nil, List.reverse_reverse, String.ofList_toList]

namespace ActionMethod

variable {m m' : ActionMethod} {t t' : EntityType}

/-- The name of a method has no separator in it. -/
def IsPlain (m : ActionMethod) : Prop := ':' ∉ m.name.toList

theorem shorthand_definition (hm : m.IsPlain) (base : String) (t : EntityType) :
    (m.definition base t).shorthand = m.name :=
  Text.afterLast_append hm (base ++ ":" ++ t.stem)

/-- Methods with plain names have different ids for types with different stems. -/
theorem stem_eq_of_id_eq {base : String} (hm : m.IsPlain) (hm' : m'.IsPlain)
    (h : (m.definition base t).id = (m'.definition base t').id) : t.stem = t'.stem := by
  have hname : m.name = m'.name := by
    rw [← shorthand_definition hm base t, ← shorthand_definition hm' base t',
      ActionDefinition.shorthand, h, ActionDefinition.shorthand]
  have h : base ++ ":" ++ t.stem ++ ":" ++ m.name = base ++ ":" ++ t'.stem ++ ":" ++ m'.name := h
  rw [hname] at h
  simpa [← String.toList_inj] using h

/-- Methods of different names can be registered together, and so can methods of different types. -/
theorem fits_definition {base : String} (hm : m.IsPlain) (hm' : m'.IsPlain)
    (h : m.name ≠ m'.name ∨ t.stem ≠ t'.stem ∧ t.id ≠ t'.id ∧ t.id ≠ allEntityTypes ∧
      t'.id ≠ allEntityTypes) : (m.definition base t).Fits (m'.definition base t') := by
  rcases h with hname | ⟨hstem, hid, hall, hall'⟩
  · refine ActionDefinition.fits_of_shorthand_ne ?_
    rwa [shorthand_definition hm, shorthand_definition hm']
  · refine ⟨fun h => hstem (stem_eq_of_id_eq hm hm' h), fun _ s ⟨hs, hs'⟩ => ?_⟩
    rw [ActionDefinition.appliesTo_iff] at hs hs'
    simp only [definition, List.mem_singleton, Ne.symm hall, Ne.symm hall', or_false] at hs hs'
    exact hid (hs.symm.trans hs')

end ActionMethod

/-! ### The actions that every site has -/

/-- The methods of a type: those of every entity, and for roles more. -/
def EntityType.methods (t : EntityType) : List ActionMethod :=
  entityMethods ++ if t.id = "user_role" then roleMethods else []

/-- The methods that some type has have different plain names. -/
theorem isPlain_of_mem {m : ActionMethod} (hm : m ∈ entityMethods ++ roleMethods) : m.IsPlain := by
  have hall : ∀ m ∈ entityMethods ++ roleMethods, ':' ∉ m.name.toList := by decide
  exact hall m hm

theorem pairwise_methods :
    (entityMethods ++ roleMethods).Pairwise fun m m' => m.name ≠ m'.name := by decide

theorem EntityType.subset_methods (t : EntityType) : t.methods ⊆ entityMethods ++ roleMethods := by
  rw [methods]
  split
  · exact List.Subset.refl _
  · rw [List.append_nil]
    exact List.subset_append_left _ _

namespace ActionRegistry

variable {types : EntityTypes} {t : EntityType} {d : ActionDefinition}

theorem coreMethods_eq (types : EntityTypes) : coreMethodTables.flatMap (·.definitions types) =
    (types.values.flatMap fun t => entityMethods.map (·.definition "entity_method" t)) ++
      (types.get? "user_role").toList.flatMap fun t =>
        roleMethods.map (·.definition "entity_method" t) := by
  simp [coreMethodTables, MethodTable.definitions]

theorem mem_coreMethods_iff (hkeyed : types.Keyed) :
    d ∈ coreMethodTables.flatMap (·.definitions types) ↔
      ∃ t ∈ types.values, ∃ m ∈ t.methods, d = m.definition "entity_method" t := by
  rw [coreMethods_eq, List.mem_append, List.mem_flatMap, List.mem_flatMap]
  constructor
  · rintro (⟨t, ht, hd⟩ | ⟨t, ht, hd⟩)
    · obtain ⟨m, hm, rfl⟩ := List.mem_map.mp hd
      exact ⟨t, ht, m, List.mem_append_left _ hm, rfl⟩
    · obtain ⟨ht, hid⟩ := hkeyed.mem_toList_get?_iff.mp ht
      obtain ⟨m, hm, rfl⟩ := List.mem_map.mp hd
      refine ⟨t, ht, m, List.mem_append_right _ ?_, rfl⟩
      rwa [if_pos hid]
  · rintro ⟨t, ht, m, hm, rfl⟩
    rcases List.mem_append.mp hm with hm | hm
    · exact .inl ⟨t, ht, List.mem_map_of_mem hm⟩
    · split at hm
      · rename_i hid
        exact .inr ⟨t, hkeyed.mem_toList_get?_iff.mpr ⟨ht, hid⟩, List.mem_map_of_mem hm⟩
      · cases hm

/-- The methods that some types have can be registered. -/
theorem pairwise_coreMethods (hkeyed : types.Keyed) (h : types.Separate) :
    (coreMethodTables.flatMap (·.definitions types)).Pairwise ActionDefinition.Fits := by
  have hown : ∀ (t : EntityType) (methods : List ActionMethod),
      methods.Sublist (entityMethods ++ roleMethods) →
      (methods.map (·.definition "entity_method" t)).Pairwise ActionDefinition.Fits := by
    intro t methods hsub
    refine List.pairwise_map.mpr ((pairwise_methods.sublist hsub).imp_of_mem ?_)
    intro m m' hm hm' hname
    exact ActionMethod.fits_definition (isPlain_of_mem (hsub.subset hm))
      (isPlain_of_mem (hsub.subset hm')) (.inl hname)
  have hothers : types.values.Pairwise fun t u => t.stem ≠ u.stem ∧ t.id ≠ u.id :=
    (List.pairwise_map.mp h.stems).and (List.pairwise_map.mp hkeyed.nodup_ids)
  rw [coreMethods_eq, List.pairwise_append, List.pairwise_flatMap, List.pairwise_flatMap]
  refine ⟨⟨fun t _ => hown t _ (List.sublist_append_left _ _), ?_⟩,
    ⟨fun t _ => hown t _ (List.sublist_append_right _ _), ?_⟩, ?_⟩
  · refine hothers.imp_of_mem ?_
    rintro t u ht hu ⟨hstem, hid⟩ d hd e he
    obtain ⟨m, hm, rfl⟩ := List.mem_map.mp hd
    obtain ⟨m', hm', rfl⟩ := List.mem_map.mp he
    exact ActionMethod.fits_definition (isPlain_of_mem (List.mem_append_left _ hm))
      (isPlain_of_mem (List.mem_append_left _ hm'))
      (.inr ⟨hstem, hid, h.notAll t ht, h.notAll u hu⟩)
  · cases types.get? "user_role" with
    | none => exact .nil
    | some t => exact List.pairwise_singleton ..
  · -- Methods of roles have other names than those of every entity.
    intro d hd e he
    obtain ⟨t, -, hd⟩ := List.mem_flatMap.mp hd
    obtain ⟨u, -, he⟩ := List.mem_flatMap.mp he
    obtain ⟨m, hm, rfl⟩ := List.mem_map.mp hd
    obtain ⟨m', hm', rfl⟩ := List.mem_map.mp he
    exact ActionMethod.fits_definition (isPlain_of_mem (List.mem_append_left _ hm))
      (isPlain_of_mem (List.mem_append_right _ hm'))
      (.inl ((List.pairwise_append.mp pairwise_methods).2.2 m hm m' hm'))

/-- The registry with the actions that every site has for some types. -/
structure HoldsCore (r : ActionRegistry) (types : EntityTypes) : Prop where
  keyed : types.Keyed
  separate : types.Separate
  entityTypes : r.entityTypes = types
  definitions : r.definitions = plainActions ++ coreMethodTables.flatMap (·.definitions types)
  clear : r.Clear

/-- The actions that every site has can be registered. -/
theorem exists_core (hkeyed : types.Keyed) (h : types.Separate) :
    ∃ r, core types = .ok r ∧ r.HoldsCore types := by
  have hplain : plainActions.Pairwise fun d e => d.shorthand ≠ e.shorthand := by decide
  have hnames : ∀ d ∈ plainActions, ∀ m ∈ entityMethods ++ roleMethods, d.shorthand ≠ m.name := by
    decide
  have hfits : (plainActions ++ coreMethodTables.flatMap (·.definitions types)).Pairwise
      ActionDefinition.Fits := by
    refine List.pairwise_append.mpr ⟨hplain.imp ActionDefinition.fits_of_shorthand_ne,
      pairwise_coreMethods hkeyed h, fun d hd e he => ?_⟩
    obtain ⟨t, -, m, hm, rfl⟩ := (mem_coreMethods_iff hkeyed).mp he
    have hm := t.subset_methods hm
    refine ActionDefinition.fits_of_shorthand_ne ?_
    rw [ActionMethod.shorthand_definition (isPlain_of_mem hm)]
    exact hnames d hd m hm
  obtain ⟨r, hr, hdefs, htypes⟩ := registerAll_eq_ok (r := { entityTypes := types })
    (l := plainActions ++ coreMethodTables.flatMap (·.definitions types)) hfits
  refine ⟨r, ?_, hkeyed, h, htypes, hdefs, ?_⟩
  · rw [core, hr]
  · rw [Clear, hdefs]
    exact hfits.imp And.right

end ActionRegistry

/-! ### Shorthands -/

/-- The shorthands for a type, with the ids that they stand for. -/
def EntityType.shorthands (t : EntityType) : List (String × String) :=
  let own (method : String) : String × String :=
    (method, "entity_method:" ++ t.stem ++ ":" ++ method)
  [("create", "entity_create:create"), ("ensure_exists", "entity_create:ensure_exists"),
    own "setLabel", own "setStatus", own "set", own "setThirdPartySetting"] ++
    if t.id = "user_role" then [own "grantPermission", own "revokePermission"] else []

/-- The actions that apply to entities of a type. -/
def EntityType.actions (t : EntityType) : List ActionDefinition :=
  plainActions.take 2 ++ t.methods.map (·.definition "entity_method" t)

namespace EntityType

variable {t : EntityType} {e : String × String}

/-- The shorthands and ids are those of the actions. -/
theorem map_actions (t : EntityType) :
    t.actions.map (fun d => (d.shorthand, d.id)) = t.shorthands := by
  have hmethods : t.methods.map (fun m => (m.name, "entity_method:" ++ t.stem ++ ":" ++ m.name))
      = t.shorthands.drop 2 := by
    rw [methods, shorthands]
    split <;> rfl
  have hown : (t.methods.map (·.definition "entity_method" t)).map (fun d => (d.shorthand, d.id))
      = t.methods.map fun m => (m.name, "entity_method:" ++ t.stem ++ ":" ++ m.name) := by
    rw [List.map_map]
    refine List.map_congr_left fun m hm => ?_
    have hplain := isPlain_of_mem (t.subset_methods hm)
    exact Prod.ext (ActionMethod.shorthand_definition hplain _ t) rfl
  rw [actions, List.map_append, hown, hmethods]
  rfl

/-- All shorthands; types other than that of roles have the first ones. -/
def roleShorthands : List String :=
  ["create", "ensure_exists", "setLabel", "setStatus", "set", "setThirdPartySetting",
    "grantPermission", "revokePermission"]

theorem prefix_roleShorthands (t : EntityType) : t.shorthands.map Prod.fst <+: roleShorthands := by
  rw [shorthands]
  split
  · exact List.prefix_refl _
  · exact ⟨["grantPermission", "revokePermission"], rfl⟩

theorem nodup_shorthands (t : EntityType) : (t.shorthands.map Prod.fst).Nodup := by
  have hall : roleShorthands.Nodup := by decide
  exact hall.sublist t.prefix_roleShorthands.sublist

theorem of_mem_shorthands (he : e ∈ t.shorthands) :
    ':' ∉ e.1.toList ∧ e.1 ≠ "simple_config_update" := by
  have hall : ∀ short ∈ roleShorthands, ':' ∉ short.toList ∧ short ≠ "simple_config_update" := by
    decide
  exact hall _ (t.prefix_roleShorthands.subset (List.mem_map_of_mem he))

end EntityType

namespace ActionRegistry

variable {types : EntityTypes} {t : EntityType} {r : ActionRegistry} {d : ActionDefinition}

/-- What can be done with the entities of a type. -/
structure Offers (r : ActionRegistry) (types : EntityTypes) (t : EntityType) : Prop where
  /-- There are the shorthands of the type, and no others. -/
  shorthands : r.shorthands t.id = NameMap.ofList t.shorthands
  /-- They stand for their ids when they are used on a name that the type counts for. -/
  resolve : ∀ name, types.ownerOf? name = some t →
    ∀ e ∈ t.shorthands, r.resolve e.1 name = .ok e.2
  /-- The ids are those of creating entities and of methods for this type. -/
  definition : ∀ e ∈ t.shorthands, ∃ d, r.definition? e.2 = some d ∧ d.shorthand = e.1 ∧
    (d ∈ plainActions ∧ d.entityTypes = [allEntityTypes] ∨
      ∃ m ∈ entityMethods ++ roleMethods, m.name = e.1 ∧ d = m.definition "entity_method" t)

namespace HoldsCore

variable (h : r.HoldsCore types)

include h

theorem mem_iff : d ∈ r.definitions ↔
    d ∈ plainActions ∨ ∃ t ∈ types.values, ∃ m ∈ t.methods, d = m.definition "entity_method" t := by
  rw [h.definitions, List.mem_append, mem_coreMethods_iff h.keyed]

/-- The actions that apply to a type. -/
theorem mem_actions_iff (ht : t ∈ types.values) :
    d ∈ t.actions ↔ d ∈ r.definitions ∧ d.appliesTo t.id = true := by
  rw [EntityType.actions, List.mem_append, h.mem_iff]
  constructor
  · rintro (hd | hd)
    · have hall : ∀ d ∈ plainActions.take 2, allEntityTypes ∈ d.entityTypes := by decide
      exact ⟨.inl (List.mem_of_mem_take hd), ActionDefinition.appliesTo_iff.mpr (.inr (hall d hd))⟩
    · obtain ⟨m, hm, rfl⟩ := List.mem_map.mp hd
      refine ⟨.inr ⟨t, ht, m, hm, rfl⟩, ActionDefinition.appliesTo_iff.mpr (.inl ?_)⟩
      exact List.mem_singleton_self t.id
  · rintro ⟨hd | ⟨u, hu, m, hm, rfl⟩, happlies⟩
    · refine .inl ?_
      simp only [plainActions, List.mem_cons, List.not_mem_nil, or_false] at hd
      rcases hd with rfl | rfl | rfl
      · exact List.mem_cons_self
      · exact List.mem_cons_of_mem _ List.mem_cons_self
      · cases happlies
    · have hid : u.id = t.id := by
        rcases ActionDefinition.appliesTo_iff.mp happlies with hmem | hmem
        · exact (List.mem_singleton.mp hmem).symm
        · exact absurd (List.mem_singleton.mp hmem).symm (h.separate.notAll u hu)
      obtain rfl := h.keyed.eq_of_id_eq hu ht hid
      exact .inr (List.mem_map_of_mem hm)

theorem standsFor_iff (ht : t ∈ types.values) {short : String} :
    r.StandsFor short t.id d ↔ d ∈ t.actions ∧ d.shorthand = short := by
  rw [h.mem_actions_iff ht, StandsFor]
  tauto

theorem get?_shorthands_iff (ht : t ∈ types.values) {short full : String} :
    (r.shorthands t.id).get? short = some full ↔ (short, full) ∈ t.shorthands := by
  rw [h.clear.get?_shorthands, ← EntityType.map_actions, List.mem_map]
  simp only [h.standsFor_iff ht, Prod.mk.injEq, and_assoc]

/-- No shorthand is a full id. -/
theorem contains_eq_false {e : String × String} (he : e ∈ t.shorthands) :
    r.contains e.1 = false := by
  obtain ⟨hplain, hne⟩ := EntityType.of_mem_shorthands he
  rw [← Bool.not_eq_true, contains_iff]
  intro hmem
  obtain ⟨d, hd, hid⟩ := List.mem_map.mp hmem
  have hall : ∀ d ∈ plainActions, ':' ∈ d.id.toList ∨ d.id = "simple_config_update" := by decide
  rcases h.mem_iff.mp hd with hd | ⟨u, -, m, -, rfl⟩
  · rcases hall d hd with hsep | hupdate
    · exact hplain (hid ▸ hsep)
    · exact hne (hid.symm.trans hupdate)
  · refine hplain (hid ▸ ?_)
    simp [ActionMethod.definition]

theorem offers (ht : t ∈ types.values) : r.Offers types t where
  shorthands := by
    refine NameMap.ext_get? fun short => Option.ext fun full => ?_
    rw [h.get?_shorthands_iff ht, NameMap.get?_ofList_iff t.nodup_shorthands]
  resolve name howner e he := by
    refine h.clear.resolve_eq_ok.mpr (.inr ⟨h.contains_eq_false he, t, ?_⟩)
    rw [← EntityType.map_actions] at he
    obtain ⟨d, hd, rfl⟩ := List.mem_map.mp he
    exact ⟨d, h.entityTypes ▸ howner, (h.standsFor_iff ht).mpr ⟨hd, rfl⟩, rfl⟩
  definition e he := by
    rw [← EntityType.map_actions] at he
    obtain ⟨d, hd, rfl⟩ := List.mem_map.mp he
    refine ⟨d, definition?_of_mem ((h.mem_actions_iff ht).mp hd).1, rfl, ?_⟩
    rcases List.mem_append.mp hd with hd | hd
    · have hall : ∀ d ∈ plainActions.take 2, d.entityTypes = [allEntityTypes] := by decide
      exact .inl ⟨List.mem_of_mem_take hd, hall d hd⟩
    · obtain ⟨m, hm, rfl⟩ := List.mem_map.mp hd
      have hm := t.subset_methods hm
      exact .inr ⟨m, hm, (ActionMethod.shorthand_definition (isPlain_of_mem hm) _ t).symm, rfl⟩

end HoldsCore

/-- The actions that every site has can be registered for types that are registered. -/
theorem exists_core_ofList {l : List EntityType} (h : (EntityTypes.ofList l).Separate) :
    ∃ r, core (EntityTypes.ofList l) = .ok r ∧
      ∀ t ∈ (EntityTypes.ofList l).values, r.Offers (EntityTypes.ofList l) t := by
  obtain ⟨r, hr, hcore⟩ := exists_core (EntityTypes.keyed_ofList l) h
  exact ⟨r, hr, fun t ht => hcore.offers ht⟩

/-- **What every site offers.** If no two types have the same stem and none has the id that stands
for all types, nothing of what every site has is refused. So there is a site with such a catalog,
whatever else it has; in memory, it is there if the schemas can be read. And there are the right
shorthands for each type, which stand for its own methods and for creating entities. -/
theorem offers_of_separate :
    (∀ l, (EntityTypes.ofList l).Separate → ∃ r, core (EntityTypes.ofList l) = .ok r ∧
      ∀ t ∈ (EntityTypes.ofList l).values, r.Offers (EntityTypes.ofList l) t) ∧
    ∀ catalog : Catalog, catalog.entityTypes.Separate →
      ∃ r, core catalog.entityTypes = .ok r ∧
        (∀ t ∈ catalog.entityTypes.values, r.Offers catalog.entityTypes t) ∧
        (∀ root schemas workspace log, Site.ofParts root catalog schemas workspace log
          = .ok { app := { root, catalog, actions := r, schemas }, state := { workspace, log } }) ∧
        ∀ fs root, (Site.inMemory fs root catalog).isOk = (Schemas.ofCatalog fs catalog).isOk := by
  refine ⟨fun l => exists_core_ofList, fun catalog h => ?_⟩
  obtain ⟨l, hl⟩ := catalog.exists_entityTypes_eq
  obtain ⟨r, hr, hoffers⟩ := exists_core_ofList (hl ▸ h)
  rw [← hl] at hr hoffers
  have hparts : ∀ root schemas workspace log, Site.ofParts root catalog schemas workspace log
      = .ok { app := { root, catalog, actions := r, schemas }, state := { workspace, log } } := by
    intro root schemas workspace log
    rw [Site.ofParts, hr]
    rfl
  refine ⟨r, hr, hoffers, hparts, fun fs root => ?_⟩
  rw [Site.inMemory]
  cases Schemas.ofCatalog fs catalog with
  | error e => rfl
  | ok schemas => exact congrArg Except.isOk (hparts root schemas _ _)

/-! ### An instance -/

/-- An extension with types whose stems have separators in them, or nothing, or go on from each
other. -/
def manyTypes : Catalog := NameMap.ofList [("many",
  { name := "many"
    kind := .module
    entityTypes := NameMap.ofList
      [("bare", ""), ("set", "user.role:set"), ("user_role", "user.role")] })]

/-- Each of these types has its own method under a shorthand that they have in common. -/
theorem offers_manyTypes : ∃ r, core manyTypes.entityTypes = .ok r ∧
    r.resolve "set" "user.role.x" = .ok "entity_method:user.role:set" ∧
    r.resolve "set" "user.role:set.x" = .ok "entity_method:user.role:set:set" ∧
    r.resolve "set" ".x" = .ok "entity_method::set" := by
  have hseparate : manyTypes.entityTypes.Separate := ⟨by decide, by decide⟩
  obtain ⟨r, hr, hoffers, -, -⟩ := offers_of_separate.2 manyTypes hseparate
  have hresolve : ∀ t name, t ∈ manyTypes.entityTypes.values →
      manyTypes.entityTypes.ownerOf? name = some t →
      r.resolve "set" name = .ok ("entity_method:" ++ t.stem ++ ":" ++ "set") :=
    fun t name ht howner => (hoffers t ht).resolve name howner ("set", _)
      (List.mem_append_left _ (by simp))
  refine ⟨r, hr, ?_, ?_, ?_⟩
  · exact hresolve ⟨"user_role", "user.role", "many"⟩ "user.role.x" (by decide) (by decide)
  · exact hresolve ⟨"set", "user.role:set", "many"⟩ "user.role:set.x" (by decide) (by decide)
  · exact hresolve ⟨"bare", "", "many"⟩ ".x" (by decide) (by decide)

end ActionRegistry

end Cookbook
