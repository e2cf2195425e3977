import Cookbook.Proofs.Extension.Installing
import Cookbook.Proofs.Storage.Failing
import Cookbook.Proofs.Yaml.WellFormed
import Cookbook.Recipe.Loading
import Mathlib.Data.List.Perm.Basic

/-!
# What a loaded recipe holds

The value of an action is a part of the manifest that was read. On the way there the manifest only
loses keys that are null and is taken apart, so the value is as well-formed as what a document gives.

The objects that a recipe brings are decoded from files or come from the default configuration of
extensions; there is no third place.

## Main results

* `Application.failsAs_load`: loading a recipe never finds recipes without end.
* `Application.eq_of_load`: the id and the directory of a recipe.
* `Application.isWellFormed_of_load`: the values of its actions are well-formed.
* `RecipeConfig.holds_storage`: what it brings has a property of all objects that are decoded or in
  the default configuration.
-/

namespace Cookbook

namespace Manifest

variable {v : Value}

/-! ### Parts of a manifest -/

theorem isWellFormed_of_entriesOf {es : List (Value × Value)} (hv : v.isWellFormed = true)
    (h : entriesOf v = .ok es) : ∀ e ∈ es, e.2.isWellFormed = true := by
  rw [entriesOf] at h
  split at h
  · cases h
    rintro e ⟨⟩
  · split at h
    · rename_i m hm
      cases h
      have hwf := Value.isWellFormed_of_asMapping? hv hm
      exact fun e he => ((Mapping.isWellFormed_iff.mp hwf).1 e he).2
    · cases h

theorem isWellFormed_of_fieldsOf {known : List String} {fields : List (String × Value)}
    (hv : v.isWellFormed = true) (h : fieldsOf known v = .ok fields) :
    ∀ f ∈ fields, f.2.isWellFormed = true := by
  obtain ⟨es, hes, h⟩ := Except.bind_eq_ok_iff.mp h
  intro f hf
  obtain ⟨⟨k, w⟩, he, h⟩ := Except.exists_of_mapM_eq_ok h f hf
  obtain ⟨name, -, h⟩ := Except.bind_eq_ok_iff.mp h
  split at h
  · cases h
    exact isWellFormed_of_entriesOf hv hes (k, w) he
  · cases h

/-- A field that was taken is one of the fields, or it is left out. -/
theorem fieldOf_eq_ok {α : Type} {fields : List (String × Value)} {name : String}
    {f : Value → Except String α} {default : Except String α} {x : α}
    (h : fieldOf fields name f default = .ok x) :
    (∃ e ∈ fields, f e.2 = .ok x) ∨ default = .ok x := by
  rw [fieldOf] at h
  split at h
  · rename_i hfind
    exact .inl ⟨_, List.mem_of_find?_eq_some hfind, h⟩
  · exact .inr h

theorem isWellFormed_of_configOf {c : ConfigSection} (hv : v.isWellFormed = true)
    (h : configOf v = .ok c) : ∀ e ∈ c.actions.entries, e.2.isWellFormed = true := by
  obtain ⟨fields, hfields, h⟩ := Except.bind_eq_ok_iff.mp h
  obtain ⟨imports, -, h⟩ := Except.bind_eq_ok_iff.mp h
  obtain ⟨actions, hactions, h⟩ := Except.bind_eq_ok_iff.mp h
  cases h
  rcases fieldOf_eq_ok hactions with ⟨f, hf, hactions⟩ | hactions
  · cases hes : entriesOf f.2 with
    | error e =>
      rw [hes] at hactions
      cases hactions
    | ok es =>
      rw [hes] at hactions
      cases hactions
      exact isWellFormed_of_entriesOf (isWellFormed_of_fieldsOf hv hfields f hf) hes
  · cases hactions
    rintro e ⟨⟩

/-! ### Keys that are null -/

theorem isWellFormed_dropNulls (hv : v.isWellFormed = true) :
    (dropNulls v).isWellFormed = true := by
  cases v with
  | map entries =>
    have h := Value.areEntriesWellFormed_iff.mp hv
    refine Value.areEntriesWellFormed_iff.mpr ⟨fun e he => ?_, h.2.filter _⟩
    exact h.1 e (List.mem_filter.mp he).1
  | _ => exact hv

theorem isWellFormed_withoutNulls (hv : v.isWellFormed = true) :
    (withoutNulls v).isWellFormed = true := by
  have hdropped := isWellFormed_dropNulls hv
  rw [withoutNulls]
  cases h : dropNulls v with
  | map entries =>
    rw [h] at hdropped
    have h := Value.areEntriesWellFormed_iff.mp hdropped
    refine Value.areEntriesWellFormed_iff.mpr ⟨fun e he => ?_, List.pairwise_map.mpr ?_⟩
    · obtain ⟨f, hf, rfl⟩ := List.mem_map.mp he
      split
      · exact ⟨(h.1 f hf).1, isWellFormed_dropNulls (h.1 f hf).2⟩
      · exact h.1 f hf
    · refine h.2.imp fun {e f} hne => ?_
      split <;> split <;> exact hne
  | _ => rwa [h] at hdropped

/-! ### The whole manifest -/

theorem isWellFormed_of_ofValue {m : Manifest} (hv : v.isWellFormed = true)
    (h : ofValue v = .ok m) : ∀ e ∈ m.config.actions.entries, e.2.isWellFormed = true := by
  obtain ⟨fields, hfields, h⟩ := Except.bind_eq_ok_iff.mp h
  obtain ⟨_, -, h⟩ := Except.bind_eq_ok_iff.mp h
  obtain ⟨_, -, h⟩ := Except.bind_eq_ok_iff.mp h
  obtain ⟨_, -, h⟩ := Except.bind_eq_ok_iff.mp h
  obtain ⟨_, -, h⟩ := Except.bind_eq_ok_iff.mp h
  obtain ⟨_, -, h⟩ := Except.bind_eq_ok_iff.mp h
  obtain ⟨config, hconfig, h⟩ := Except.bind_eq_ok_iff.mp h
  obtain ⟨_, -, h⟩ := Except.bind_eq_ok_iff.mp h
  cases h
  rcases fieldOf_eq_ok hconfig with ⟨f, hf, hconfig⟩ | hconfig
  · exact isWellFormed_of_configOf
      (isWellFormed_of_fieldsOf (isWellFormed_withoutNulls hv) hfields f hf) hconfig
  · cases hconfig
    rintro e ⟨⟩

theorem isWellFormed_of_readValue {fs : Files} {path : Path} (h : readValue fs path = .ok v) :
    v.isWellFormed = true := by
  rw [readValue] at h
  split at h
  · cases h
  · split at h
    · cases h
    · split at h
      · cases h
      · split at h
        · cases h
        · rename_i hread
          cases h
          exact Yaml.isWellFormed_readValue hread

theorem isWellFormed_of_parse {fs : Files} {context : ManifestContext} {path : Path} {id : String}
    {m : Manifest} (h : parse fs context path id = .ok m) :
    ∀ e ∈ m.config.actions.entries, e.2.isWellFormed = true := by
  obtain ⟨data, hdata, h⟩ := Except.bind_eq_ok_iff.mp h
  dsimp only at h
  split at h
  · cases h
  · split at h
    · rename_i m' hm
      cases h
      exact isWellFormed_of_ofValue (isWellFormed_of_readValue hdata) hm
    · cases h

end Manifest

namespace RecipeConfig

theorem isWellFormed_of_actionsOf {actions : Mapping}
    (h : ∀ e ∈ actions.entries, e.2.isWellFormed = true) :
    ∀ i ∈ actionsOf actions, i.value.isWellFormed = true := by
  intro i hi
  obtain ⟨⟨k, v⟩, he, hi⟩ := List.mem_flatMap.mp hi
  dsimp only at hi
  split at hi
  · rename_i m _ hm
    obtain ⟨⟨id, w⟩, hid, hi⟩ := List.mem_filterMap.mp hi
    obtain ⟨_, -, rfl⟩ := Option.map_eq_some_iff.mp hi
    have hwf := Value.isWellFormed_of_asMapping? (h _ he) hm
    exact ((Mapping.isWellFormed_iff.mp hwf).1 _ hid).2
  · cases hi

theorem actions_of_ofSection {fs : Files} {active : Storage} {s : ConfigSection} {dir : Path}
    {id : String} {c : RecipeConfig} (h : ofSection fs active s dir id = .ok c) :
    c.actions = actionsOf s.actions := by
  unfold ofSection at h
  dsimp only at h
  split at h
  · obtain ⟨names, -, h⟩ := Except.bind_eq_ok_iff.mp h
    split at h
    · cases h
    · cases h
      rfl
  · cases h
    rfl

/-! ### What a recipe brings -/

variable {fs : Files} {catalog : Catalog} {c : RecipeConfig} {Q : ConfigObject → Prop}

theorem holds_importedOf {name : String} {spec : ImportSpec} {os : Objects}
    (hcatalog : catalog.Holds Q) (h : importedOf fs catalog name spec = .ok os) :
    ∀ k o, os.get? k = some o → Q o := by
  unfold importedOf at h
  split at h
  · cases h
  · rename_i x hx
    cases spec with
    | everything mark =>
      obtain ⟨names, -, h⟩ := Except.bind_eq_ok_iff.mp h
      exact (hcatalog name x hx).readEach h
    | names l => exact (hcatalog name x hx).readEach h

theorem holds_imported {found : Objects} (hcatalog : catalog.Holds Q)
    (h : c.imported fs catalog = .ok found) : ∀ k o, found.get? k = some o → Q o := by
  refine Except.foldlM_invariant
    (P := fun found : Objects => ∀ k o, found.get? k = some o → Q o) ?_ (by simp) h
  rintro found hfound ⟨name, spec⟩ - found' h k o ho
  obtain ⟨os, hos, h⟩ := Except.bind_eq_ok_iff.mp h
  cases h
  rcases NameMap.mem_or_mem_of_get?_insertAll ho with ho | ho
  · exact holds_importedOf hcatalog hos k o (NameMap.mem_entries_iff.mp ho)
  · exact hfound k o ho

/-- What a recipe brings is decoded from files or comes from the default configuration. -/
theorem holds_storage {s : Storage} (hdecode : ∀ t o, ConfigObject.decode t = .ok o → Q o)
    (hcatalog : catalog.Holds Q) (h : c.storage fs catalog = .ok s) : s.Holds Q := by
  have hown : ∀ s ∈ c.directory.toList.map Storage.directory, s.Holds Q := by
    intro s hs
    obtain ⟨dir, -, rfl⟩ := List.mem_map.mp hs
    exact hdecode
  rw [storage] at h
  split at h
  · cases h
    exact Storage.Holds.mergeAll hown
  · obtain ⟨found, hfound, h⟩ := Except.bind_eq_ok_iff.mp h
    cases h
    refine Storage.Holds.mergeAll fun s hs => ?_
    rcases List.mem_append.mp hs with hs | hs
    · exact hown s hs
    · rw [List.mem_singleton] at hs
      subst hs
      intro k name o ho
      rw [Snapshot.object?, Snapshot.collection, NameMap.get?_insert] at ho
      split at ho
      · exact holds_imported hcatalog hfound name o ho
      · cases ho

end RecipeConfig

/-! ### How loading fails -/

theorem Manifest.failsAs_parse (fs : Files) (context : ManifestContext) (path : Path)
    (id : String) : Except.FailsAs Error.IsPlain (parse fs context path id) := by
  have hread : Except.FailsAs Error.IsPlain (readValue fs path) := by
    rw [readValue]
    split
    · exact Except.FailsAs.error trivial
    · split
      · exact Except.FailsAs.error trivial
      · split
        · exact Except.FailsAs.error trivial
        · split
          · exact Except.FailsAs.error trivial
          · exact Except.FailsAs.ok _
  refine hread.bind fun data => ?_
  dsimp only
  split
  · exact Except.FailsAs.error trivial
  · split
    · exact Except.FailsAs.ok _
    · exact Except.FailsAs.error trivial

namespace InstallPlan

theorem failsAs_collect (catalog : Catalog) (installed : List String) (fuel : Nat)
    (order : List String) (name : String) :
    Except.FailsAs Error.IsPlain (collect catalog installed fuel order name) := by
  induction fuel generalizing order name with
  | zero => exact Except.FailsAs.ok order
  | succ fuel ih =>
    rw [collect]
    split
    · exact Except.FailsAs.ok order
    · split
      · exact Except.FailsAs.error trivial
      · refine (Except.FailsAs.foldlM (fun order name _ => ih order name) _).bind fun whole => ?_
        exact Except.FailsAs.ok _

theorem failsAs_ofExtensions (catalog : Catalog) (installed dependencies : List String) :
    Except.FailsAs Error.IsPlain (ofExtensions catalog installed dependencies) := by
  refine (Except.FailsAs.foldlM (fun order name _ => ?_) _).bind fun order => Except.FailsAs.ok _
  exact failsAs_collect catalog installed _ order name

/-! ### Plans -/

variable {catalog : Catalog} {installed dependencies order order' : List String} {name : String}
  {p : InstallPlan}

theorem mem_moveToEnd {i : Nat} {l : List String} : name ∈ moveToEnd i l ↔ name ∈ l := by
  rw [moveToEnd, List.mem_append]
  rcases Nat.lt_or_ge i l.length with hi | hi
  · rw [List.getElem?_eq_getElem hi, ← (List.getElem_cons_eraseIdx_perm hi).mem_iff]
    simp [or_comm]
  · rw [List.eraseIdx_of_length_le hi, List.getElem?_eq_none hi]
    simp

/-- An order only grows. -/
theorem subset_of_collect {fuel : Nat}
    (h : collect catalog installed fuel order name = .ok order') : order ⊆ order' := by
  induction fuel generalizing order order' name with
  | zero =>
    cases h
    exact List.Subset.refl _
  | succ fuel ih =>
    rw [collect] at h
    split at h
    · cases h
      exact List.Subset.refl _
    · split at h
      · cases h
      · obtain ⟨whole, hwhole, h⟩ := Except.bind_eq_ok_iff.mp h
        cases h
        have hgrown : order ⊆ whole := by
          refine Except.foldlM_invariant (P := (order ⊆ ·)) (fun _ hfound _ _ _ hstep => ?_)
            (List.subset_append_left _ _) hwhole
          exact List.Subset.trans hfound (ih hstep)
        exact fun n hn => mem_moveToEnd.mpr (hgrown hn)

/-- An extension is in the order once it is put there, unless it is installed. -/
theorem mem_of_collect {fuel : Nat}
    (h : collect catalog installed (fuel + 1) order name = .ok order') :
    name ∈ installed ∨ name ∈ order' := by
  rw [collect] at h
  split at h
  · rename_i hfound
    cases h
    simpa using hfound
  · split at h
    · cases h
    · obtain ⟨whole, hwhole, h⟩ := Except.bind_eq_ok_iff.mp h
      cases h
      have hgrown : name ∈ whole := by
        refine Except.foldlM_invariant (P := (name ∈ ·)) (fun _ hfound _ _ _ hstep => ?_)
          (List.mem_append_right _ (List.mem_singleton_self _)) hwhole
        exact subset_of_collect hstep hfound
      exact .inr (mem_moveToEnd.mpr hgrown)

/-- What a recipe lists is installed or planned. -/
theorem mem_of_ofExtensions (h : ofExtensions catalog installed dependencies = .ok p) :
    p.extensions = dependencies.map Extension.dependencyName ∧
      ∀ name ∈ p.extensions, name ∈ installed ∨ name ∈ p.modules ++ p.themes := by
  obtain ⟨order, horder, h⟩ := Except.bind_eq_ok_iff.mp h
  cases h
  refine ⟨rfl, fun name hname => ?_⟩
  have hlisted := (Except.foldlM_brings (P := fun _ => True)
    (D := fun name order => name ∈ installed ∨ name ∈ order)
    (fun _ _ _ _ _ hstep => ⟨trivial, mem_of_collect hstep,
      fun _ => Or.imp_right fun hmem => subset_of_collect hstep hmem⟩) trivial horder).2.1
  refine (hlisted name hname).imp_right fun hmem => ?_
  simp only [List.mem_append, List.mem_filter, hmem, true_and]
  cases (catalog.get? name).any (·.kind = .theme) with
  | true => exact .inr rfl
  | false => exact .inl rfl

/-- Nothing is planned if all that a recipe lists is installed. -/
theorem ofExtensions_of_installed
    (h : ∀ name ∈ dependencies.map Extension.dependencyName, name ∈ installed) :
    ofExtensions catalog installed dependencies
      = .ok { extensions := dependencies.map Extension.dependencyName } := by
  have hstep : ∀ order, order = [] → ∀ name ∈ dependencies.map Extension.dependencyName,
      ∃ order', collect catalog installed (catalog.size + 1) order name = .ok order' ∧
        order' = [] := by
    rintro order rfl name hname
    exact ⟨[], by rw [collect, if_pos (by simp [h name hname])], rfl⟩
  obtain ⟨order, hnone, rfl⟩ := Except.exists_foldlM_eq_ok hstep rfl
  rw [ofExtensions, hnone]
  rfl

end InstallPlan

theorem RecipeConfig.failsAs_ofSection (fs : Files) (active : Storage) (s : ConfigSection)
    (dir : Path) (id : String) :
    Except.FailsAs Error.IsPlain (ofSection fs active s dir id) := by
  have hmismatched : ∀ own, Except.FailsAs Error.IsPlain (mismatched fs active own) := by
    intro own
    refine (Storage.failsAs_listFiles own _).bind fun names => ?_
    refine Except.FailsAs.filterM fun name _ => (Storage.failsAs_read? active).bind fun found => ?_
    cases found with
    | none => exact Except.FailsAs.ok false
    | some o =>
      refine (Storage.failsAs_readFile? _).bind fun shipped => ?_
      exact Except.FailsAs.ok _
  rw [ofSection]
  dsimp only
  split
  · refine (hmismatched _).bind fun names => ?_
    split
    · exact Except.FailsAs.error trivial
    · exact Except.FailsAs.ok _
  · exact Except.FailsAs.ok _

namespace Application

variable {fs : Files} {active : Storage} {a : Application} {dir : Path} {r : Recipe}

/-- The id and the directory of a recipe. -/
theorem eq_of_load (h : a.load fs active dir = .ok r) :
    r.path = recipePath fs dir ∧ r.id = (recipePath fs dir).fileName?.getD "" := by
  obtain ⟨_, -, h⟩ := Except.bind_eq_ok_iff.mp h
  obtain ⟨_, -, h⟩ := Except.bind_eq_ok_iff.mp h
  obtain ⟨_, -, h⟩ := Except.bind_eq_ok_iff.mp h
  obtain ⟨_, -, h⟩ := Except.bind_eq_ok_iff.mp h
  cases h
  exact ⟨rfl, rfl⟩

/-- Loading one recipe does not look at those it lists. -/
theorem failsAs_load (fs : Files) (active : Storage) (a : Application) (dir : Path) :
    Except.FailsAs Error.IsPlain (a.load fs active dir) := by
  refine (Storage.failsAs_installedExtensions active).bind fun installed => ?_
  refine (Manifest.failsAs_parse fs _ _ _).bind fun m => ?_
  refine (InstallPlan.failsAs_ofExtensions _ _ _).bind fun install => ?_
  refine (RecipeConfig.failsAs_ofSection fs active _ _ _).bind fun config => ?_
  exact Except.FailsAs.ok _

/-- The values of the actions of a loaded recipe are well-formed. -/
theorem isWellFormed_of_load (h : a.load fs active dir = .ok r) :
    ∀ i ∈ r.config.actions, i.value.isWellFormed = true := by
  obtain ⟨_, -, h⟩ := Except.bind_eq_ok_iff.mp h
  obtain ⟨m, hm, h⟩ := Except.bind_eq_ok_iff.mp h
  obtain ⟨_, -, h⟩ := Except.bind_eq_ok_iff.mp h
  obtain ⟨config, hconfig, h⟩ := Except.bind_eq_ok_iff.mp h
  cases h
  rw [RecipeConfig.actions_of_ofSection hconfig]
  exact RecipeConfig.isWellFormed_of_actionsOf (Manifest.isWellFormed_of_parse hm)

end Application

end Cookbook
