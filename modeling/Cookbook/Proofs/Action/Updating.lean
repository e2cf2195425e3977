import Cookbook.Proofs.Action.Nested
import Cookbook.Proofs.Action.Untouched
import Cookbook.Proofs.Value.Inserting

/-!
# Updating several paths

An update puts values at several dotted paths, one after the other. Paths may have their first keys
in common, and then they are set in the same inner mappings: where one of them had to make such a
mapping, or put one in the place of a text, the next finds it. So each step depends on those before
it. But if none of the paths leads to another one, or to a place below it, what a step does at its
own place does not.

## The argument

Two sequences of keys that are apart share some first keys and then part. Up to there both steps do
the same, which is nothing below a tagged mapping; after that each changes what is under a key of
its own. `Mapping.setKeys_setKeys_cons` goes down one shared key and `Mapping.setKeys_eq` is the
step where they part, so every law of two steps is an induction along the first path. The laws of a
whole update are folds of these.

The order of the steps shows in the order of entries, and in nothing else.

## Main definitions

* `Apart`: neither of two sequences of keys leads to the other or below it.
* `Value.pathKeys`, `Mapping.HasPaths`: the paths of an update, which are apart.
* `Mapping.setPaths`: an object after an update.

## Main results

* `Mapping.getKeys?_setKeys_of_apart`, `Mapping.same_setKeys_comm`, `Mapping.setKeys_of_settled`:
  two steps that are apart.
* `ConfigM.updates_apart`: what an update does to a stored object.
-/

namespace Cookbook

open Change

/-! ### Paths that are apart -/

/-- Neither of two sequences of keys leads to the other, or to a place below it. -/
def Apart (p q : List String) : Prop := ¬p <+: q ∧ ¬q <+: p

namespace Apart

variable {p q : List String} {key key' : String}

theorem symm (h : Apart p q) : Apart q p := ⟨h.2, h.1⟩

theorem ne_nil (h : Apart p q) : p ≠ [] := by
  rintro rfl
  exact h.1 (List.nil_prefix)

/-- From a shared first key on, what is left is apart. -/
theorem tail (h : Apart (key :: p) (key :: q)) : Apart p q :=
  ⟨fun hpq => h.1 (List.cons_prefix_cons.mpr ⟨rfl, hpq⟩),
    fun hqp => h.2 (List.cons_prefix_cons.mpr ⟨rfl, hqp⟩)⟩

instance : Decidable (Apart p q) := inferInstanceAs (Decidable (_ ∧ _))

end Apart

/-- The keys that the key of an update stands for. -/
def Value.pathKeys (k : Value) : List String := Text.split '.' (k.asString?.getD "")

namespace Mapping

open ConfigObject

variable {m n o child : Mapping} {key key' : String} {p q rest rest' : List String} {v w : Value}

/-! ### One key -/

/-- What setting a value below a key puts under the key, if anything. -/
def below? (o : Mapping) (key : String) (rest : List String) (v : Value) : Option Value :=
  if rest = [] then some v else (o.inner? key).map fun child => (child.setKeys rest v).toValue

theorem setKeys_eq (o : Mapping) (key : String) (rest : List String) (v : Value) :
    o.setKeys (key :: rest) v = (o.below? key rest v).elim o (o.insertName key) := by
  rcases eq_or_ne rest [] with rfl | hrest
  · rfl
  · rw [setKeys_cons o key hrest, below?, if_neg hrest]
    cases o.inner? key <;> rfl

theorem inner?_congr (h : m.getName? key = n.getName? key) : m.inner? key = n.inner? key := by
  rw [inner?, inner?, h]

theorem below?_congr (h : m.getName? key = n.getName? key) :
    m.below? key rest v = n.below? key rest v := by
  rw [below?, below?, inner?_congr h]

theorem getKeys?_congr (h : m.getName? key = n.getName? key) :
    getKeys? m (key :: rest) = getKeys? n (key :: rest) := by
  rcases eq_or_ne rest [] with rfl | hrest
  · exact h
  · rw [getKeys?_cons m key hrest, getKeys?_cons n key hrest, h]

/-- Setting a value below a key leaves other keys as they are. -/
theorem getName?_setKeys_of_ne (h : key' ≠ key) (rest : List String) (v : Value) :
    (o.setKeys (key :: rest) v).getName? key' = o.getName? key' := by
  rw [setKeys_eq]
  cases o.below? key rest v with
  | none => rfl
  | some x => exact getName?_insertName_of_ne o x h

theorem inner?_insertName_self (o : Mapping) (key : String) (child : Mapping) :
    (o.insertName key child.toValue).inner? key = some child := by
  rw [inner?, getName?_insertName_self]
  rfl

/-- Below a key where a value can be put, keys lead where they lead from there. -/
theorem getKeys?_of_inner? (h : o.inner? key = some child) (hrest : rest ≠ []) :
    getKeys? o (key :: rest) = getKeys? child rest := by
  rw [getKeys?_cons o key hrest]
  rcases inner?_eq_some h with hchild | ⟨hnone, rfl⟩
  · rw [hchild]
    rfl
  · rw [hnone, getKeys?_empty]
    rfl

/-! ### One shared key -/

theorem setKeys_of_inner? (h : o.inner? key = some child) (hrest : rest ≠ []) (v : Value) :
    o.setKeys (key :: rest) v = o.insertName key (child.setKeys rest v).toValue := by
  rw [setKeys_cons o key hrest, h]

/-- Below a tagged mapping nothing changes. -/
theorem setKeys_of_inner?_eq_none (h : o.inner? key = none) (hrest : rest ≠ []) (v : Value) :
    o.setKeys (key :: rest) v = o := by
  rw [setKeys_cons o key hrest, h]

/-- Two steps below one key are two steps in what is there. -/
theorem setKeys_setKeys_cons (h : o.inner? key = some child) (hrest : rest ≠ [])
    (hrest' : rest' ≠ []) (v w : Value) : (o.setKeys (key :: rest) v).setKeys (key :: rest') w
      = o.insertName key ((child.setKeys rest v).setKeys rest' w).toValue := by
  rw [setKeys_of_inner? h hrest, setKeys_of_inner? (inner?_insertName_self ..) hrest',
    insertName_insertName]

/-! ### Two steps that are apart -/

/-- What other keys lead to stays. -/
theorem getKeys?_setKeys_of_apart (h : Apart p q) (v : Value) :
    getKeys? (o.setKeys p v) q = getKeys? o q := by
  induction p generalizing o q with
  | nil => rfl
  | cons key rest ih =>
    obtain ⟨key', rest', rfl⟩ := List.exists_cons_of_ne_nil h.symm.ne_nil
    by_cases hkey : key' = key
    · subst hkey
      cases hinner : o.inner? key' with
      | none => rw [setKeys_of_inner?_eq_none hinner h.tail.ne_nil]
      | some child =>
        rw [setKeys_of_inner? hinner h.tail.ne_nil,
          getKeys?_of_inner? (inner?_insertName_self ..) h.tail.symm.ne_nil, ih h.tail,
          getKeys?_of_inner? hinner h.tail.symm.ne_nil]
    · exact getKeys?_congr (getName?_setKeys_of_ne hkey rest v)

/-- A value that is there, or is shielded by a tag, is not set again, whatever was set elsewhere. -/
theorem setKeys_of_settled (hsettled : o.setKeys p v = o) (h : Apart p q) (w : Value) :
    (o.setKeys q w).setKeys p v = o.setKeys q w := by
  induction p generalizing o q with
  | nil => rfl
  | cons key rest ih =>
    obtain ⟨key', rest', rfl⟩ := List.exists_cons_of_ne_nil h.symm.ne_nil
    by_cases hkey : key = key'
    · subst hkey
      cases hinner : o.inner? key with
      | none =>
        rw [setKeys_of_inner?_eq_none hinner h.tail.symm.ne_nil,
          setKeys_of_inner?_eq_none hinner h.tail.ne_nil]
      | some child =>
        have hchild : child.setKeys rest v = child := by
          rw [setKeys_of_inner? hinner h.tail.ne_nil] at hsettled
          have hself := inner?_insertName_self o key (child.setKeys rest v)
          rw [hsettled, hinner] at hself
          exact (Option.some.inj hself).symm
        rw [setKeys_setKeys_cons hinner h.tail.symm.ne_nil h.tail.ne_nil, ih hchild h.tail,
          setKeys_of_inner? hinner h.tail.symm.ne_nil]
    · have hsame := getName?_setKeys_of_ne (o := o) hkey rest' w
      rw [setKeys_eq] at hsettled
      rw [setKeys_eq (o.setKeys (key' :: rest') w), below?_congr hsame]
      cases hbelow : o.below? key rest v with
      | none => rfl
      | some x =>
        rw [hbelow] at hsettled
        refine insertName_getName? (hsame.trans ?_)
        rw [← show o.insertName key x = o from hsettled, getName?_insertName_self]

/-- Putting a value where it is already. -/
theorem setKeys_getKeys? (h : getKeys? o p = some v) : o.setKeys p v = o := by
  induction p generalizing o with
  | nil => rfl
  | cons key rest ih =>
    rcases eq_or_ne rest [] with rfl | hrest
    · exact insertName_getName? h
    · cases hinner : o.inner? key with
      | none => exact setKeys_of_inner?_eq_none hinner hrest v
      | some child =>
        rw [getKeys?_of_inner? hinner hrest] at h
        rw [setKeys_of_inner? hinner hrest, ih h]
        rcases inner?_eq_some hinner with hchild | ⟨-, rfl⟩
        · exact insertName_getName? hchild
        · rw [getKeys?_empty] at h
          cases h

/-- A step done again changes nothing. -/
theorem setKeys_setKeys_self (o : Mapping) (p : List String) (v : Value) :
    (o.setKeys p v).setKeys p v = o.setKeys p v := by
  rcases eq_or_ne p [] with rfl | hp
  · rfl
  by_cases hshields : Shields o p
  · rw [setKeys_of_shields hshields, setKeys_of_shields hshields]
  · exact setKeys_getKeys? (getKeys?_setKeys hshields hp v)

/-! ### Steps in equal mappings -/

/-- What a value can be put into is equal in equal mappings. -/
theorem rel_inner? (hm : m.isWellFormed = true) (hn : n.isWellFormed = true)
    (h : m.same n = true) (key : String) :
    Option.Rel (fun a b => Mapping.same a b = true) (m.inner? key) (n.inner? key) := by
  have hempty : (Mapping.empty).same Mapping.empty = true := Value.same_refl _
  have hrel := rel_getName? hm hn h key
  rw [inner?, inner?]
  generalize m.getName? key = x, n.getName? key = y at hrel
  cases hrel with
  | none => exact .some hempty
  | @some a b hab =>
    have hmapping := Value.isMapping_same hab
    cases a <;> cases b <;> simp only [Value.same, Bool.false_eq_true] at hab
    case map.map => exact .some (by rwa [Mapping.same, toValue, toValue, Value.same])
    case tagged.tagged =>
      dsimp only
      rw [hmapping]
      split
      · exact .none
      · exact .some hempty
    all_goals exact .some hempty

/-- The same step in equal mappings. -/
theorem same_setKeys (hm : m.isWellFormed = true) (hn : n.isWellFormed = true)
    (h : m.same n = true) (p : List String) (v : Value) :
    (m.setKeys p v).same (n.setKeys p v) = true := by
  induction p generalizing m n with
  | nil => exact h
  | cons key rest ih =>
    rcases eq_or_ne rest [] with rfl | hrest
    · exact same_insertName hm hn h (Value.same_refl v)
    · have hrel := rel_inner? hm hn h key
      cases ha : m.inner? key with
      | none =>
        cases hb : n.inner? key with
        | none => rwa [setKeys_of_inner?_eq_none ha hrest, setKeys_of_inner?_eq_none hb hrest]
        | some b =>
          rw [ha, hb] at hrel
          cases hrel
      | some a =>
        cases hb : n.inner? key with
        | none =>
          rw [ha, hb] at hrel
          cases hrel
        | some b =>
          rw [ha, hb] at hrel
          cases hrel with
          | some hab =>
            rw [setKeys_of_inner? ha hrest, setKeys_of_inner? hb hrest]
            exact same_insertName hm hn h
              (ih (isWellFormed_of_inner? hm ha) (isWellFormed_of_inner? hn hb) hab)

theorem isWellFormed_of_below? (ho : o.isWellFormed = true) (hv : v.isWellFormed = true)
    (h : o.below? key rest v = some w) : w.isWellFormed = true := by
  rw [below?] at h
  split at h
  · exact Option.some.inj h ▸ hv
  · obtain ⟨child, hchild, rfl⟩ := Option.map_eq_some_iff.mp h
    exact isWellFormed_setKeys (isWellFormed_of_inner? ho hchild) hv rest

/-- Two steps that are apart, in either order. -/
theorem same_setKeys_comm (ho : o.isWellFormed = true) (hv : v.isWellFormed = true)
    (hw : w.isWellFormed = true) (h : Apart p q) :
    ((o.setKeys p v).setKeys q w).same ((o.setKeys q w).setKeys p v) = true := by
  induction p generalizing o q with
  | nil => exact Value.same_refl _
  | cons key rest ih =>
    obtain ⟨key', rest', rfl⟩ := List.exists_cons_of_ne_nil h.symm.ne_nil
    by_cases hkey : key = key'
    · subst hkey
      have hrest := h.tail.ne_nil
      have hrest' := h.tail.symm.ne_nil
      cases hinner : o.inner? key with
      | none =>
        rw [setKeys_of_inner?_eq_none hinner hrest, setKeys_of_inner?_eq_none hinner hrest',
          setKeys_of_inner?_eq_none hinner hrest]
        exact Value.same_refl _
      | some child =>
        rw [setKeys_setKeys_cons hinner hrest hrest', setKeys_setKeys_cons hinner hrest' hrest]
        exact same_insertName ho ho (Value.same_refl _)
          (ih (isWellFormed_of_inner? ho hinner) h.tail)
    · -- What each step puts under its key is what it would put there first.
      have hleft : (o.setKeys (key :: rest) v).setKeys (key' :: rest') w
          = (o.below? key' rest' w).elim (o.setKeys (key :: rest) v)
            ((o.setKeys (key :: rest) v).insertName key') := by
        rw [setKeys_eq _ key', below?_congr (getName?_setKeys_of_ne (Ne.symm hkey) rest v)]
      have hright : (o.setKeys (key' :: rest') w).setKeys (key :: rest) v
          = (o.below? key rest v).elim (o.setKeys (key' :: rest') w)
            ((o.setKeys (key' :: rest') w).insertName key) := by
        rw [setKeys_eq _ key rest v, below?_congr (getName?_setKeys_of_ne hkey rest' w)]
      rw [hleft, hright, setKeys_eq o key rest v, setKeys_eq o key' rest' w]
      cases hx : o.below? key rest v with
      | none => exact Value.same_refl _
      | some x =>
        cases hy : o.below? key' rest' w with
        | none => exact Value.same_refl _
        | some y =>
          exact insertName_comm ho (isWellFormed_of_below? ho hv hx)
            (isWellFormed_of_below? ho hw hy) hkey

/-! ### Whole updates -/

/-- An object after an update: one path set after the other. -/
def setPaths (o : Mapping) (entries : List (Value × Value)) : Mapping :=
  entries.foldl (fun o e => o.setKeys e.1.pathKeys e.2) o

theorem setPaths_cons (o : Mapping) (e : Value × Value) (entries : List (Value × Value)) :
    o.setPaths (e :: entries) = (o.setKeys e.1.pathKeys e.2).setPaths entries := rfl

/-- The keys of an update are paths, and these are apart. -/
structure HasPaths (given : Mapping) : Prop where
  /-- Every key is a string. -/
  strings : ∀ e ∈ given.entries, e.1.asString?.isSome = true
  /-- None leads to another, or to a place below it. -/
  apart : given.entries.Pairwise fun e f => Apart e.1.pathKeys f.1.pathKeys

variable {entries entries' : List (Value × Value)}

/-- What no path leads to or below stays, with all that is above no path. -/
theorem getKeys?_setPaths (h : ∀ e ∈ entries, Apart q e.1.pathKeys) :
    getKeys? (o.setPaths entries) q = getKeys? o q := by
  induction entries generalizing o with
  | nil => rfl
  | cons e entries ih =>
    obtain ⟨he, hrest⟩ := List.forall_mem_cons.mp h
    rw [setPaths_cons, ih hrest, getKeys?_setKeys_of_apart he.symm e.2]

theorem setPaths_of_settled (hsettled : o.setKeys p v = o)
    (h : ∀ e ∈ entries, Apart p e.1.pathKeys) :
    (o.setPaths entries).setKeys p v = o.setPaths entries := by
  induction entries generalizing o with
  | nil => exact hsettled
  | cons e entries ih =>
    obtain ⟨he, hrest⟩ := List.forall_mem_cons.mp h
    rw [setPaths_cons]
    exact ih (setKeys_of_settled hsettled he e.2) hrest

/-- After an update, none of its paths is set again. -/
theorem settled_setPaths (h : entries.Pairwise fun e f => Apart e.1.pathKeys f.1.pathKeys) :
    ∀ e ∈ entries, (o.setPaths entries).setKeys e.1.pathKeys e.2 = o.setPaths entries := by
  induction entries generalizing o with
  | nil => exact List.forall_mem_nil _
  | cons e entries ih =>
    rw [List.pairwise_cons] at h
    rw [setPaths_cons]
    refine List.forall_mem_cons.mpr ⟨?_, fun f hf => ih h.2 f hf⟩
    exact setPaths_of_settled (setKeys_setKeys_self ..) h.1

theorem setPaths_eq_self (h : ∀ e ∈ entries, o.setKeys e.1.pathKeys e.2 = o) :
    o.setPaths entries = o := by
  induction entries with
  | nil => rfl
  | cons e entries ih =>
    obtain ⟨he, hrest⟩ := List.forall_mem_cons.mp h
    rw [setPaths_cons, he, ih hrest]

/-- An update done again changes nothing. -/
theorem setPaths_setPaths (h : entries.Pairwise fun e f => Apart e.1.pathKeys f.1.pathKeys) :
    (o.setPaths entries).setPaths entries = o.setPaths entries :=
  setPaths_eq_self (settled_setPaths h)

/-- The same update of equal objects. -/
theorem same_setPaths (hm : m.isWellFormed = true) (hn : n.isWellFormed = true)
    (h : m.same n = true) (hentries : ∀ e ∈ entries, e.2.isWellFormed = true) :
    (m.setPaths entries).same (n.setPaths entries) = true := by
  induction entries generalizing m n with
  | nil => exact h
  | cons e entries ih =>
    obtain ⟨he, hrest⟩ := List.forall_mem_cons.mp hentries
    rw [setPaths_cons, setPaths_cons]
    exact ih (isWellFormed_setKeys hm he _) (isWellFormed_setKeys hn he _)
      (same_setKeys hm hn h e.1.pathKeys e.2) hrest

/-- The order of the paths of an update makes no difference. -/
theorem same_setPaths_of_perm (hperm : entries'.Perm entries) (ho : o.isWellFormed = true)
    (hentries : ∀ e ∈ entries, e.2.isWellFormed = true)
    (h : entries.Pairwise fun e f => Apart e.1.pathKeys f.1.pathKeys) :
    (o.setPaths entries').same (o.setPaths entries) = true := by
  induction hperm generalizing o with
  | nil => exact Value.same_refl _
  | cons e _ ih =>
    obtain ⟨he, hrest⟩ := List.forall_mem_cons.mp hentries
    rw [setPaths_cons, setPaths_cons]
    exact ih (isWellFormed_setKeys ho he _) hrest (List.pairwise_cons.mp h).2
  | swap e f rest =>
    obtain ⟨he, hrest⟩ := List.forall_mem_cons.mp hentries
    obtain ⟨hf, hrest⟩ := List.forall_mem_cons.mp hrest
    have hef : Apart e.1.pathKeys f.1.pathKeys :=
      (List.pairwise_cons.mp h).1 f List.mem_cons_self
    simp only [setPaths_cons]
    exact same_setPaths (isWellFormed_setKeys (isWellFormed_setKeys ho hf _) he _)
      (isWellFormed_setKeys (isWellFormed_setKeys ho he _) hf _)
      (same_setKeys_comm ho hf he hef.symm) hrest
  | trans hfirst hsecond ih₁ ih₂ =>
    have hmid := (hsecond.pairwise_iff fun {_ _} => Apart.symm).mpr h
    exact Value.same_trans (ih₁ ho (fun e he => hentries e (hsecond.subset he)) hmid)
      (ih₂ ho hentries h)

end Mapping

theorem ConfigObject.update_eq {o : ConfigObject} {entries : List (Value × Value)} (name : String)
    (h : ∀ e ∈ entries, e.1.asString?.isSome = true) :
    o.update name entries = .ok (o.setPaths entries) := by
  refine Except.foldlM_eq_ok
    (g := fun (o : Mapping) (e : Value × Value) => o.setKeys e.1.pathKeys e.2) ?_ o
  rintro o ⟨k, v⟩ he
  obtain ⟨path, hpath⟩ := Option.isSome_iff_exists.mp (h _ he)
  dsimp only at hpath ⊢
  rw [Value.pathKeys, hpath]
  rfl

namespace ConfigM

variable {w : Workspace} {name : String} {o : ConfigObject} {given : Mapping}

/-! ### The action -/

theorem outcome_read?_some (hread : w.active.read? w.files none name = .ok (some o)) :
    outcome (read? none name) w = (.ok (some o), w) := by
  rw [read?, outcome_ask, hread]

/-- With strings for keys, what is made of an object is written. -/
theorem outcome_updateSimple_of_strings (hread : w.active.read? w.files none name = .ok (some o))
    (h : ∀ e ∈ given.entries, e.1.asString?.isSome = true) :
    outcome (updateSimple name given.toValue) w
      = outcome (write none name (o.setPaths given.entries)) w := by
  rw [Mapping.toValue, Actions.outcome_updateSimple_map (outcome_read?_some hread),
    ConfigObject.update_eq name h]
  rfl

/-- With another key it is not, and nothing has changed. -/
theorem exists_error_updateSimple (w : Workspace) (name : String)
    (h : ∃ e ∈ given.entries, e.1.asString? = none) :
    ∃ error, outcome (updateSimple name given.toValue) w = (.error error, w) := by
  have hread : outcome (read? none name) w = (w.active.read? w.files none name, w) := outcome_ask ..
  rcases hfound : w.active.read? w.files none name with error | found
  · rw [hfound] at hread
    exact ⟨error, outcome_bind_error hread⟩
  · cases found with
    | none =>
      rw [hfound] at hread
      rw [updateSimple, outcome_bind_ok hread]
      exact ⟨_, rfl⟩
    | some o =>
      rw [Mapping.toValue, Actions.outcome_updateSimple_map (outcome_read?_some hfound)]
      cases hupdate : o.update name given.entries with
      | error error => exact ⟨error, rfl⟩
      | ok o' =>
        obtain ⟨e, he, hnone⟩ := h
        have hstring := Actions.exists_update_iff.mp ⟨o', hupdate⟩ e he
        rw [hnone] at hstring
        cases hstring

/-- An object that is in its place already is not changed by writing it in memory. -/
theorem outcome_write_again (hw : w.InMemory)
    (hread : w.active.read? w.files none name = .ok (some o)) :
    outcome (write none name o) w = (.ok (), w) := by
  obtain ⟨m, hm⟩ := Workspace.inMemory_iff.mp hw
  rw [hm] at hread
  have hput : Storage.putObject m defaultCollection name o = m :=
    Snapshot.putObject_object? (Except.ok.inj hread)
  rw [outcome_write hm, Storage.collectionOf, Option.getD_none, hput, ← hm]

/-- **What an update with several paths does to a stored object**, if none of the paths leads to
another or below it. With a key that is no string the update fails and changes nothing. Otherwise an
object is written in the place of the stored one. Paths that are apart from those of the update lead
to the same as before; the update with its entries in another order writes an equal object; and the
same update, wherever that object is stored, writes it again. In memory the writing does not fail,
and the second time it changes nothing. -/
theorem updates_apart (w : Workspace) (name : String) (given : Mapping) :
    ((∃ e ∈ given.entries, e.1.asString? = none) →
      ∃ error, outcome (updateSimple name given.toValue) w = (.error error, w)) ∧
    ∀ o, w.active.read? w.files none name = .ok (some o) → given.HasPaths →
      ∃ o', outcome (updateSimple name given.toValue) w = outcome (write none name o') w ∧
        (∀ path, (∀ e ∈ given.entries, Apart (Text.split '.' path) e.1.pathKeys) →
          o'.getPath? path = o.getPath? path) ∧
        (o.WellFormed → given.WellFormed → ∀ other : Mapping, other.entries.Perm given.entries →
          ∃ o'', outcome (updateSimple name other.toValue) w = outcome (write none name o'') w ∧
            o''.same o' = true) ∧
        (∀ w', w'.active.read? w'.files none name = .ok (some o') →
          outcome (updateSimple name given.toValue) w' = outcome (write none name o') w') ∧
        (w.InMemory → ∃ w', outcome (updateSimple name given.toValue) w = (.ok (), w') ∧
          w'.active.read? w'.files none name = .ok (some o') ∧
          outcome (updateSimple name given.toValue) w' = (.ok (), w')) := by
  refine ⟨exists_error_updateSimple w name, fun o hread hpaths => ?_⟩
  have hagain : ∀ w', w'.active.read? w'.files none name = .ok (some (o.setPaths given.entries)) →
      outcome (updateSimple name given.toValue) w'
        = outcome (write none name (o.setPaths given.entries)) w' := by
    intro w' hread'
    rw [outcome_updateSimple_of_strings hread' hpaths.strings,
      Mapping.setPaths_setPaths hpaths.apart]
  refine ⟨o.setPaths given.entries, outcome_updateSimple_of_strings hread hpaths.strings,
    fun path hpath => Mapping.getKeys?_setPaths hpath, fun ho hgiven other hperm => ?_, hagain,
    fun hw => ?_⟩
  · refine ⟨o.setPaths other.entries, outcome_updateSimple_of_strings hread fun e he =>
      hpaths.strings e (hperm.subset he), ?_⟩
    exact Mapping.same_setPaths_of_perm hperm ho
      (fun e he => ((Mapping.isWellFormed_iff.mp hgiven).1 e he).2) hpaths.apart
  · obtain ⟨m, hm⟩ := Workspace.inMemory_iff.mp hw
    have hstored : ∃ w', outcome (write none name (o.setPaths given.entries)) w = (.ok (), w') ∧
        w'.InMemory ∧
        w'.active.read? w'.files none name = .ok (some (o.setPaths given.entries)) := by
      refine ⟨_, outcome_write hm, Workspace.inMemory_iff.mpr ⟨_, rfl⟩, congrArg Except.ok ?_⟩
      exact (Snapshot.object?_putObject ..).trans (if_pos ⟨rfl, rfl⟩)
    obtain ⟨w', hwrite, hw', hread'⟩ := hstored
    refine ⟨w', ?_, hread', (hagain w' hread').trans (outcome_write_again hw' hread')⟩
    rw [outcome_updateSimple_of_strings hread hpaths.strings, hwrite]

/-- An object with a mapping and a text. -/
def plainNote : ConfigObject := Mapping.ofNames [
  ("page", .map [(.string "front", .string "/node"), (.string "title", .string "Home")]),
  ("mail", .string "none")]

/-- A site with that object. -/
def plainNoteSite : Workspace where
  files := {}
  active := .memory (Snapshot.ofList [(defaultCollection, "core.note", plainNote)])

/-- Paths into the mapping, below the text, and to two places in a mapping that has to be made. -/
def notePaths : Mapping := Mapping.ofNames [("site.name", .string "Notes"),
  ("page.front", .string "/home"), ("mail.from", .string "notes"), ("site.slogan", .null)]

/-- The title of the page stays, and the order of the four paths makes no difference. -/
theorem updates_plainNote :
    (∃ error, outcome (updateSimple "core.note" (.map [(.string "page.front", .null),
      (.int 404, .null)])) plainNoteSite = (.error error, plainNoteSite)) ∧
    notePaths.HasPaths ∧ plainNote.WellFormed ∧ notePaths.WellFormed ∧
    ∃ w' o', outcome (updateSimple "core.note" notePaths.toValue) plainNoteSite = (.ok (), w') ∧
      w'.active.read? w'.files none "core.note" = .ok (some o') ∧
      o'.getPath? "page.title" = some (.string "Home") ∧
      outcome (updateSimple "core.note" notePaths.toValue) w' = (.ok (), w') ∧
      ∃ o'', outcome (updateSimple "core.note" (.map notePaths.entries.reverse)) plainNoteSite
        = outcome (write none "core.note" o'') plainNoteSite ∧ o''.same o' = true := by
  have hread : plainNoteSite.active.read? plainNoteSite.files none "core.note"
      = .ok (some plainNote) := rfl
  have hpaths : notePaths.HasPaths := ⟨by decide, by decide⟩
  have ho : plainNote.WellFormed := by decide
  have hgiven : notePaths.WellFormed := by decide
  have htitle : plainNote.getPath? "page.title" = some (.string "Home") := rfl
  refine ⟨(updates_apart plainNoteSite "core.note" ⟨[(.string "page.front", .null),
    (.int 404, .null)]⟩).1 ⟨(.int 404, .null), by simp, rfl⟩, hpaths, ho, hgiven, ?_⟩
  obtain ⟨o', -, helsewhere, hperm, -, hstored⟩ :=
    (updates_apart plainNoteSite "core.note" notePaths).2 plainNote hread hpaths
  obtain ⟨w', hok, hread', hagain⟩ := hstored (Workspace.inMemory_iff.mpr ⟨_, rfl⟩)
  have htitle' := helsewhere "page.title" (by decide)
  have hreverse := hperm ho hgiven ⟨notePaths.entries.reverse⟩ (List.reverse_perm _)
  exact ⟨w', o', hok, hread', htitle'.trans htitle, hagain, hreverse⟩

end ConfigM

end Cookbook
