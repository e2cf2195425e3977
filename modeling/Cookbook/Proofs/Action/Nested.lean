import Cookbook.Proofs.Action.Core

/-!
# Setting a value below other values

A value is set where keys lead to: below mappings, which are made on the way if there are none.
Looking it up afterwards follows the same keys, so it should find the value. It does unless a tagged
mapping is on the way. Such a value counts as a mapping, so it is not replaced by one, but nothing
is put into it either. Then the whole object stays as it is, without a failure.

Looking up does go through tagged mappings. So whether one is on the way is a question that can be
asked of the object before: whether some of the keys, but not all, lead to one.

## Main definitions

* `Value.IsTaggedMapping`: a mapping with a tag.
* `ConfigObject.Shields`: a tagged mapping is on the way.
* `ConfigObject.Receives`: what becomes of an object when a value is set in it.
* `ConfigM.Sets`: what becomes of the object of a name.

## Main results

* `Mapping.setKeys_of_shields`, `Mapping.getKeys?_setKeys`: the two cases.
* `ConfigM.sets_unless_tagged`: updates of simple configuration, and third-party settings.
-/

namespace Cookbook

open Change

/-- A mapping with a tag: it counts as a mapping, but it is none itself. -/
def Value.IsTaggedMapping (v : Value) : Prop := v.isMapping = true ∧ ∀ entries, v ≠ .map entries

namespace ConfigObject

variable {o : ConfigObject} {key : String} {keys : List String} {v : Value}

/-- Some of the keys, but not all, lead to a tagged mapping. -/
def Shields (o : ConfigObject) (keys : List String) : Prop :=
  ∃ first rest v, keys = first ++ rest ∧ rest ≠ [] ∧ o.getKeys? first = some v ∧ v.IsTaggedMapping

/-- What becomes of an object when a value is set where keys lead to. -/
structure Receives (o o' : ConfigObject) (keys : List String) (v : Value) : Prop where
  /-- Keys lead to the value, if no tagged mapping is on the way. -/
  found : ¬o.Shields keys → o'.getKeys? keys = some v
  /-- The value is lost otherwise. -/
  lost : o.Shields keys → o' = o

theorem getKeys?_cons (o : ConfigObject) (key : String) (hkeys : keys ≠ []) :
    o.getKeys? (key :: keys) = ((o.getName? key).bind Value.asMapping?).bind (getKeys? · keys) := by
  rw [getKeys?]
  · cases o.getName? key with
    | none => rfl
    | some v => cases hv : v.asMapping? <;> simp [hv]
  · exact hkeys

/-- Nothing is below an object without entries. -/
theorem getKeys?_empty (keys : List String) : getKeys? Mapping.empty keys = none := by
  match keys with
  | [] => rfl
  | [_] => rfl
  | _ :: _ :: _ => rfl

/-- Nothing is on the way to what is under the first key. -/
theorem not_shields_singleton (o : ConfigObject) (key : String) : ¬Shields o [key] := by
  rintro ⟨first, rest, v, heq, hrest, hv, -⟩
  rcases List.singleton_eq_append_iff.mp heq with ⟨rfl, -⟩ | ⟨-, rfl⟩
  · cases hv
  · exact hrest rfl

theorem not_shields_empty (keys : List String) : ¬Shields Mapping.empty keys := by
  rintro ⟨first, rest, v, -, -, hv, -⟩
  rw [getKeys?_empty] at hv
  cases hv

end ConfigObject

namespace Mapping

open ConfigObject

variable {o child : Mapping} {key : String} {keys : List String} {v : Value}

/-- Putting a value where it is already. -/
theorem insertName_getName? (h : o.getName? key = some v) : o.insertName key v = o := by
  obtain ⟨l⟩ := o
  simp only [getName?, get?, insertName, insert] at h ⊢
  congr 1
  induction l with
  | nil => cases h
  | cons e rest ih =>
    rw [insertEntry]
    rw [List.find?_cons] at h
    cases he : e.1.same (.string key) with
    | true =>
      rw [he] at h
      cases h
      rfl
    | false =>
      rw [he] at h
      exact congrArg (e :: ·) (ih h)

/-! ### One key -/

/-- Nothing can be put below a tagged mapping. -/
theorem inner?_eq_none (h : o.inner? key = none) :
    ∃ v, o.getName? key = some v ∧ v.IsTaggedMapping := by
  rw [inner?] at h
  cases hv : o.getName? key with
  | none =>
    rw [hv] at h
    cases h
  | some v =>
    rw [hv] at h
    cases v with
    | map entries => cases h
    | tagged tag v =>
      dsimp only at h
      split at h
      · rename_i hm
        exact ⟨_, rfl, hm, fun _ => nofun⟩
      · cases h
    | _ => cases h

/-- What a value can be put into is the mapping that is there, or a new one. -/
theorem inner?_eq_some (h : o.inner? key = some child) :
    o.getName? key = some child.toValue ∨
      (o.getName? key).bind Value.asMapping? = none ∧ child = Mapping.empty := by
  rw [inner?] at h
  cases hv : o.getName? key with
  | none =>
    rw [hv] at h
    cases h
    exact .inr ⟨rfl, rfl⟩
  | some v =>
    rw [hv] at h
    cases v with
    | map entries =>
      cases h
      exact .inl rfl
    | tagged tag v =>
      dsimp only at h
      split at h
      · cases h
      · rename_i hm
        cases h
        exact .inr ⟨by simpa [Value.isMapping] using hm, rfl⟩
    | _ =>
      cases h
      exact .inr ⟨rfl, rfl⟩

/-- A tagged mapping is on the way if it is under the first key, or on the way from there. -/
theorem shields_cons (hkeys : keys ≠ []) : Shields o (key :: keys) ↔
    o.inner? key = none ∨ ∃ child, o.inner? key = some child ∧ Shields child keys := by
  constructor
  · rintro ⟨first, rest, v, heq, hrest, hv, htagged⟩
    cases first with
    | nil => cases hv
    | cons k more =>
      obtain ⟨rfl, rfl⟩ := List.cons_eq_cons.mp heq
      cases hinner : o.inner? key with
      | none => exact .inl rfl
      | some child =>
        refine .inr ⟨child, rfl, more, rest, v, rfl, hrest, ?_, htagged⟩
        rcases eq_or_ne more [] with rfl | hmore
        · -- The tagged mapping is under the first key, so nothing can be put into it.
          rw [getKeys?] at hv
          rcases inner?_eq_some hinner with hchild | ⟨hnone, -⟩
          · rw [hchild] at hv
            exact absurd (Option.some.inj hv).symm (htagged.2 child.entries)
          · rw [hv] at hnone
            have hmapping := htagged.1
            rw [Value.isMapping, show v.asMapping? = none from hnone] at hmapping
            cases hmapping
        · rw [getKeys?_cons o key hmore] at hv
          rcases inner?_eq_some hinner with hchild | ⟨hnone, -⟩
          · rwa [hchild] at hv
          · rw [hnone] at hv
            cases hv
  · rintro (hnone | ⟨child, hinner, first, rest, v, rfl, hrest, hv, htagged⟩)
    · obtain ⟨v, hv, htagged⟩ := inner?_eq_none hnone
      exact ⟨[key], keys, v, rfl, hkeys, hv, htagged⟩
    · have hfirst : first ≠ [] := by
        rintro rfl
        cases hv
      refine ⟨key :: first, rest, v, rfl, hrest, ?_, htagged⟩
      rw [getKeys?_cons o key hfirst]
      rcases inner?_eq_some hinner with hchild | ⟨-, rfl⟩
      · rw [hchild]
        exact hv
      · rw [getKeys?_empty] at hv
        cases hv

theorem setKeys_cons (o : Mapping) (key : String) (hkeys : keys ≠ []) (v : Value) :
    o.setKeys (key :: keys) v = match o.inner? key with
      | none => o
      | some child => o.insertName key (child.setKeys keys v).toValue := by
  cases keys with
  | nil => exact absurd rfl hkeys
  | cons next rest => rfl

/-! ### All keys -/

/-- Below a tagged mapping nothing is put. -/
theorem setKeys_of_shields (h : Shields o keys) (v : Value) : o.setKeys keys v = o := by
  induction keys generalizing o with
  | nil => rfl
  | cons key keys ih =>
    rcases eq_or_ne keys [] with rfl | hkeys
    · exact absurd h (not_shields_singleton o key)
    rw [setKeys_cons o key hkeys]
    rcases (shields_cons hkeys).mp h with hnone | ⟨child, hinner, hshields⟩
    · rw [hnone]
    · rw [hinner]
      dsimp only
      rw [ih hshields]
      rcases inner?_eq_some hinner with hchild | ⟨-, rfl⟩
      · exact insertName_getName? hchild
      · exact absurd hshields (not_shields_empty keys)

/-- Anywhere else the value is found afterwards. -/
theorem getKeys?_setKeys (h : ¬Shields o keys) (hkeys : keys ≠ []) (v : Value) :
    getKeys? (o.setKeys keys v) keys = some v := by
  induction keys generalizing o with
  | nil => exact absurd rfl hkeys
  | cons key keys ih =>
    rcases eq_or_ne keys [] with rfl | hrest
    · exact o.getName?_insertName_self key v
    rw [shields_cons hrest, not_or, not_exists] at h
    obtain ⟨child, hinner⟩ := Option.ne_none_iff_exists'.mp h.1
    have hchild : ¬Shields child keys := fun hshields => h.2 child ⟨hinner, hshields⟩
    rw [setKeys_cons o key hrest, hinner, getKeys?_cons _ key hrest, getName?_insertName_self]
    exact ih hchild hrest

/-- What is set is found afterwards, unless a tagged mapping is on the way. -/
theorem receives_setKeys (o : Mapping) (hkeys : keys ≠ []) (v : Value) :
    Receives o (o.setKeys keys v) keys v :=
  ⟨fun h => getKeys?_setKeys h hkeys v, fun h => setKeys_of_shields h v⟩

end Mapping

/-! ### Actions -/

namespace ConfigM

variable {x : ConfigM Unit} {name : String} {keys : List String} {v : Value}

/-- If a change succeeds, it has put an object in the place of the one of a name, and this is what
became of that one when a value was set where keys lead to. -/
def Sets (x : ConfigM Unit) (name : String) (keys : List String) (v : Value) : Prop :=
  ∀ w w', outcome x w = (.ok (), w') → ∃ o o', w.active.read? w.files none name = .ok (some o) ∧
    outcome (write none name o') w = (.ok (), w') ∧
    (w.InMemory → w'.active.read? w'.files none name = .ok (some o')) ∧ o.Receives o' keys v

/-- It is enough to know what is written. -/
theorem sets_of_write (hkeys : keys ≠ [])
    (h : ∀ w w', outcome x w = (.ok (), w') → ∃ o, w.active.read? w.files none name = .ok (some o) ∧
      outcome (write none name (o.setKeys keys v)) w = (.ok (), w')) : Sets x name keys v := by
  intro w w' hx
  obtain ⟨o, hread, hwrite⟩ := h w w' hx
  refine ⟨o, o.setKeys keys v, hread, hwrite, fun hw => ?_, o.receives_setKeys hkeys v⟩
  obtain ⟨m, hm⟩ := Workspace.inMemory_iff.mp hw
  rw [outcome_write hm] at hwrite
  cases hwrite
  refine congrArg Except.ok ?_
  show Snapshot.object? _ _ _ = _
  rw [Snapshot.object?_putObject, if_pos ⟨rfl, rfl⟩]

/-- A change that starts by reading an object and succeeds has read it. -/
theorem exists_of_outcome_read {f : Option ConfigObject → ConfigM Unit} {w w' : Workspace}
    (h : outcome (read? none name >>= f) w = (.ok (), w')) :
    ∃ oo, w.active.read? w.files none name = .ok oo ∧ outcome (f oo) w = (.ok (), w') := by
  obtain ⟨oo, w₁, hread, hf⟩ := eq_ok_of_outcome_bind h
  rw [read?, outcome_ask, Prod.mk.injEq] at hread
  exact ⟨oo, hread.1, hread.2 ▸ hf⟩

/-- An update of simple configuration with one path. -/
theorem sets_updateSimple (name path : String) (v : Value) :
    Sets (updateSimple name (.map [(.string path, v)])) name (Text.split '.' path) v := by
  have hkeys : Text.split '.' path ≠ [] := by simp [Text.split, Text.splitPieces_ne_nil]
  refine sets_of_write hkeys fun w w' hx => ?_
  obtain ⟨oo, hread, hx⟩ := exists_of_outcome_read hx
  cases oo with
  | none => cases hx
  | some o => exact ⟨o, hread, hx⟩

/-- A third-party setting. -/
theorem sets_thirdPartySetting {method : ActionMethod} (hmethod : method ∈ entityMethods)
    (hname : method.name = "setThirdPartySetting") {type action : String} {given a b : Value}
    (hargs : method.arguments type action given = .ok [a, b, v]) (name : String) :
    Sets (method.apply type action name given) name
      ["third_party_settings", a.asString?.getD "", b.asString?.getD ""] v := by
  refine sets_of_write (List.cons_ne_nil _ _) fun w w' hx => ?_
  obtain ⟨oo, hread, hx⟩ := exists_of_outcome_read hx
  rw [hargs] at hx
  simp only [entityMethods, List.mem_cons, List.not_mem_nil, or_false] at hmethod
  rcases hmethod with rfl | rfl | rfl | rfl
  · exact absurd hname (by decide)
  · exact absurd hname (by decide)
  · exact absurd hname (by decide)
  · cases oo with
    | none => cases hx
    | some o => exact ⟨o, hread, hx⟩

/-- An update of one path, and a third-party setting, are found afterwards, unless a tagged mapping
is on the way: then they are lost without a failure. -/
theorem sets_unless_tagged (name : String) (v : Value) :
    (∀ path, Sets (updateSimple name (.map [(.string path, v)])) name (Text.split '.' path) v) ∧
    ∀ method ∈ entityMethods, method.name = "setThirdPartySetting" → ∀ type action given a b,
      method.arguments type action given = .ok [a, b, v] →
        Sets (method.apply type action name given) name
          ["third_party_settings", a.asString?.getD "", b.asString?.getD ""] v :=
  ⟨fun path => sets_updateSimple name path v, fun _ hmethod hname _ _ _ _ _ hargs =>
    sets_thirdPartySetting hmethod hname hargs name⟩

/-- A page and third-party settings below tags. -/
def taggedNote : ConfigObject := Mapping.ofNames [
  ("page", .tagged "t" (.map [(.string "front", .string "/node")])),
  ("third_party_settings", .tagged "t" (.map []))]

/-- A site with that object. -/
def taggedSite : Workspace where
  files := {}
  active := .memory (Snapshot.ofList [(defaultCollection, "core.note", taggedNote)])

/-- The method for third-party settings. -/
def thirdPartyMethod : ActionMethod := entityMethods.getLast (by decide)

/-- Below its tag the page keeps its front, and no setting is stored; beside it there is a new
value. -/
theorem lost_below_tag :
    (∃ w', outcome (updateSimple "core.note" (.map [(.string "page.front", .string "/home")]))
        taggedSite = (.ok (), w') ∧
      w'.active.read? w'.files none "core.note" = .ok (some taggedNote) ∧
      taggedNote.getPath? "page.front" = some (.string "/node")) ∧
    (∃ w', outcome (thirdPartyMethod.apply "note" "set" "core.note"
        (.seq [.string "menu", .string "depth", .int 2])) taggedSite = (.ok (), w') ∧
      w'.active.read? w'.files none "core.note" = .ok (some taggedNote) ∧
      taggedNote.getPath? "third_party_settings.menu.depth" = none) ∧
    ∃ w' o, outcome (updateSimple "core.note" (.map [(.string "site.front", .string "/home")]))
        taggedSite = (.ok (), w') ∧
      w'.active.read? w'.files none "core.note" = .ok (some o) ∧
      o.getPath? "site.front" = some (.string "/home") := by
  have hw : taggedSite.InMemory := Workspace.inMemory_iff.mpr ⟨_, rfl⟩
  have hread : taggedSite.active.read? taggedSite.files none "core.note" = .ok (some taggedNote) :=
    rfl
  refine ⟨?_, ?_, ?_⟩
  · obtain ⟨o, o', ho, -, hstored, hreceives⟩ :=
      (sets_unless_tagged "core.note" (.string "/home")).1 "page.front" taggedSite _ rfl
    rw [hread] at ho
    cases ho
    have hshields : taggedNote.Shields (Text.split '.' "page.front") :=
      ⟨["page"], ["front"], _, by decide, by decide, rfl, rfl, fun _ => nofun⟩
    rw [hreceives.lost hshields] at hstored
    exact ⟨_, rfl, hstored hw, rfl⟩
  · obtain ⟨o, o', ho, -, hstored, hreceives⟩ :=
      (sets_unless_tagged "core.note" (.int 2)).2 thirdPartyMethod (List.getLast_mem _) (by decide)
        "note" "set" (.seq [.string "menu", .string "depth", .int 2]) (.string "menu")
        (.string "depth") rfl taggedSite _ rfl
    rw [hread] at ho
    cases ho
    have hshields : taggedNote.Shields ["third_party_settings", "menu", "depth"] :=
      ⟨["third_party_settings"], ["menu", "depth"], _, rfl, by decide, rfl, rfl, fun _ => nofun⟩
    rw [hreceives.lost hshields] at hstored
    exact ⟨_, rfl, hstored hw, rfl⟩
  · obtain ⟨o, o', ho, -, hstored, hreceives⟩ :=
      (sets_unless_tagged "core.note" (.string "/home")).1 "site.front" taggedSite _ rfl
    rw [hread] at ho
    cases ho
    have hfree : ¬taggedNote.Shields (Text.split '.' "site.front") := by
      rw [show Text.split '.' "site.front" = ["site", "front"] by decide,
        Mapping.shields_cons (List.cons_ne_nil _ _)]
      rintro (hnone | ⟨child, -, hshields⟩)
      · cases hnone
      · exact ConfigObject.not_shields_singleton child "front" hshields
    exact ⟨_, o', rfl, hstored hw, hreceives.found hfree⟩

end ConfigM

end Cookbook
