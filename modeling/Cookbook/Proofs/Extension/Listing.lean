import Cookbook.Extension.Installer
import Cookbook.Proofs.Storage.Reading
import Cookbook.Proofs.Value.Building

/-!
# The list of installed extensions

What is installed is read from an object whose entries may be anything. Two facts about it are
used. Equal objects list the same extensions, if they are well-formed; that is where symmetry of
equality is needed. And listing an extension adds its name and touches no other, so that an object
that holds such lists and nothing else is rewritten to one.

## Main definitions

* `ConfigObject.installed`: what an object lists as installed.
* `ConfigObject.Tidy`: an object that lists extensions and holds nothing else.

## Main results

* `ConfigObject.installed_eq_of_same`: equal objects list the same extensions.
* `Catalog.mem_names_relisted`, `Catalog.mem_installed_listed`: what is listed after an extension
  was.
* `Storage.Shows.installedExtensions`: reading the list from a storage in memory.
-/

namespace Cookbook

namespace ConfigObject

variable {o p : ConfigObject} {kind : ExtensionKind} {name : String}

/-- The names that an object lists as installed, ascending. -/
def installed (o : ConfigObject) : List String :=
  NameMap.distinctNames ((o.extensionList .module).names ++ (o.extensionList .theme).names)

theorem mem_installed_iff : name ∈ o.installed ↔ ∃ kind, name ∈ (o.extensionList kind).names := by
  rw [installed, NameMap.mem_distinctNames, List.mem_append]
  constructor
  · rintro (h | h)
    · exact ⟨.module, h⟩
    · exact ⟨.theme, h⟩
  · rintro ⟨kind, h⟩
    cases kind
    · exact .inl h
    · exact .inr h

theorem mem_names_extensionList_iff : name ∈ (o.extensionList kind).names ↔
    ∃ v m, o.getName? kind.word = some v ∧ v.asMapping? = some m ∧
      ∃ e ∈ m.entries, e.1.asString? = some name := by
  rw [extensionList]
  cases hv : o.getName? kind.word with
  | none => simp [NameMap.names, NameMap.empty]
  | some v =>
    rw [Option.bind_some]
    cases hm : v.asMapping? with
    | none => simp [NameMap.names, NameMap.empty, hm]
    | some m =>
      rw [NameMap.mem_names_ofList, List.mem_map]
      constructor
      · rintro ⟨f, hf, rfl⟩
        obtain ⟨e, he, hname⟩ := List.mem_filterMap.mp hf
        refine ⟨v, m, rfl, hm, e, he, ?_⟩
        obtain ⟨s, hs, rfl⟩ := Option.map_eq_some_iff.mp hname
        exact hs
      · rintro ⟨v', m', hv', hm', e, he, hname⟩
        cases hv'
        cases hm.symm.trans hm'
        refine ⟨(name, e.2), List.mem_filterMap.mpr ⟨e, he, ?_⟩, rfl⟩
        rw [hname]
        rfl

/-- What an object lists, an object equal to it lists as well, if that is well-formed. -/
theorem installed_subset_of_same (hp : p.isWellFormed = true) (h : o.same p = true) :
    ∀ name ∈ o.installed, name ∈ p.installed := by
  intro name hname
  obtain ⟨kind, hname⟩ := mem_installed_iff.mp hname
  obtain ⟨v, m, hv, hm, e, he, hname⟩ := mem_names_extensionList_iff.mp hname
  obtain ⟨w, hw, hvw⟩ := Mapping.exists_getName?_of_same hp h hv
  obtain ⟨n, hn, hmn⟩ := Value.exists_asMapping?_of_same hvw hm
  rw [Mapping.same, Mapping.toValue, Mapping.toValue, Value.same, Bool.and_eq_true] at hmn
  obtain ⟨f, hf, hkey, -⟩ := Value.sameEntries_iff.mp hmn.2 e he
  refine mem_installed_iff.mpr ⟨kind, mem_names_extensionList_iff.mpr ⟨w, n, hw, hn, f, hf, ?_⟩⟩
  rw [← Value.asString?_same hkey, hname]

/-- Equal well-formed objects list the same extensions. -/
theorem installed_eq_of_same (ho : o.isWellFormed = true) (hp : p.isWellFormed = true)
    (h : o.same p = true) : o.installed = p.installed := by
  have hsub := installed_subset_of_same hp h
  have hsub' := installed_subset_of_same ho (Mapping.same_symm ho hp h)
  refine NameMap.distinctNames_congr fun name => ⟨fun hname => ?_, fun hname => ?_⟩
  · exact NameMap.mem_distinctNames.mp (hsub name (NameMap.mem_distinctNames.mpr hname))
  · exact NameMap.mem_distinctNames.mp (hsub' name (NameMap.mem_distinctNames.mpr hname))

/-- What stands beside the names in the list is part of the object. -/
theorem isWellFormed_of_extensionList (ho : o.isWellFormed = true) {v : Value}
    (h : (o.extensionList kind).get? name = some v) : v.isWellFormed = true := by
  rw [extensionList] at h
  split at h
  · rename_i m hm
    obtain ⟨w, hw, hm⟩ := Option.bind_eq_some_iff.mp hm
    have hwf := Value.isWellFormed_of_asMapping? (Mapping.isWellFormed_of_getName? ho hw) hm
    obtain ⟨e, he, heq⟩ := List.mem_filterMap.mp (NameMap.mem_of_get?_ofList h)
    obtain ⟨s, -, heq⟩ := Option.map_eq_some_iff.mp heq
    cases heq
    exact ((Mapping.isWellFormed_iff.mp hwf).1 e he).2
  · cases h

/-! ### Objects that hold nothing else -/

/-- An object with a list of names for each kind, as it is read, and nothing else. -/
structure Tidy (o : ConfigObject) : Prop where
  /-- There are no other keys. -/
  keys : o.keys.Perm [.string "module", .string "theme"]
  /-- What is read as a list is all there is. -/
  lists : ∀ kind : ExtensionKind,
    o.getName? kind.word = some (Mapping.ofNames (o.extensionList kind).entries).toValue
  /-- Nothing is said of an extension but its name. -/
  zero : ∀ kind name v, (o.extensionList kind).get? name = some v → v = .int 0

theorem Tidy.containsName (h : o.Tidy) (kind : ExtensionKind) :
    o.containsName kind.word = true := by
  rw [Mapping.containsName, h.lists]
  rfl

theorem Tidy.entries_eq (h : o.Tidy) (kind : ExtensionKind) :
    (o.extensionList kind).entries = (o.extensionList kind).names.map (·, .int 0) := by
  rw [NameMap.names, List.map_map]
  refine (List.map_id' _).symm.trans (List.map_congr_left fun e he => ?_)
  rw [Function.comp_apply, ← h.zero kind e.1 e.2 (NameMap.mem_entries_iff.mp he)]

end ConfigObject

namespace Catalog

variable {o : ConfigObject} {x : Extension} {installed : Bool} {kind : ExtensionKind}
  {name : String}

/-! ### Listing an extension -/

/-- The list of a kind after an extension was listed as installed, or not. -/
def relisted (x : Extension) (installed : Bool) (kind : ExtensionKind) (l : NameMap Value) :
    NameMap Value :=
  if kind ≠ x.kind then l else if installed then l.insert x.name (.int 0) else l.erase x.name

/-- An object in which the list of a kind was rewritten. -/
def withList (x : Extension) (installed : Bool) (o : ConfigObject) (kind : ExtensionKind) :
    ConfigObject :=
  o.insertName kind.word
    (Mapping.ofNames (relisted x installed kind (o.extensionList kind)).entries).toValue

theorem listed_eq (x : Extension) (installed : Bool) (o : ConfigObject) :
    listed x installed o = withList x installed (withList x installed o .module) .theme :=
  rfl

theorem extensionList_withList (o : ConfigObject) (kind kind' : ExtensionKind) :
    (withList x installed o kind).extensionList kind'
      = if kind' = kind then relisted x installed kind (o.extensionList kind)
        else o.extensionList kind' := by
  rw [withList]
  split
  · rename_i heq
    subst heq
    rw [ConfigObject.extensionList, Mapping.getName?_insertName_self, Option.bind_some]
    refine Eq.trans (congrArg NameMap.ofList ?_) (NameMap.ofList_entries _)
    rw [Mapping.ofNames, List.filterMap_map]
    exact List.filterMap_some ..
  · rename_i hne
    have hword : kind'.word ≠ kind.word := by
      cases kind <;> cases kind' <;> simp_all [ExtensionKind.word]
    rw [ConfigObject.extensionList, Mapping.getName?_insertName_of_ne _ _ hword]
    rfl

theorem extensionList_listed (o : ConfigObject) (kind : ExtensionKind) :
    (listed x installed o).extensionList kind
      = relisted x installed kind (o.extensionList kind) := by
  rw [listed_eq, extensionList_withList, extensionList_withList]
  cases kind <;> simp [extensionList_withList]

/-- Only the extension's own name, in the list of its kind, is put in or taken out. -/
theorem get?_relisted (l : NameMap Value) : (relisted x installed kind l).get? name
    = if kind = x.kind ∧ name = x.name then (if installed then some (.int 0) else none)
      else l.get? name := by
  rw [relisted]
  by_cases hkind : kind = x.kind
  · rw [if_neg (not_not.mpr hkind)]
    cases installed with
    | true => simp [NameMap.get?_insert, hkind, eq_comm]
    | false => simp [NameMap.get?_erase, hkind, eq_comm]
  · simp [hkind]

theorem mem_names_relisted {l : NameMap Value} : name ∈ (relisted x installed kind l).names ↔
    if kind = x.kind ∧ name = x.name then installed = true else name ∈ l.names := by
  rw [NameMap.mem_names_iff, get?_relisted, NameMap.mem_names_iff]
  split <;> simp

/-- What stands under the word for a kind once an extension was listed, or taken out. -/
theorem getName?_listed (o : ConfigObject) (kind : ExtensionKind) :
    (listed x installed o).getName? kind.word
      = some (Mapping.ofNames
          (relisted x installed kind (o.extensionList kind)).entries).toValue := by
  rw [listed_eq]
  cases kind with
  | module =>
    rw [withList, Mapping.getName?_insertName_of_ne _ _ (by decide), withList,
      Mapping.getName?_insertName_self]
  | theme =>
    rw [withList, Mapping.getName?_insertName_self, extensionList_withList, if_neg (by decide)]

/-- Listing an extension as installed adds its name. -/
theorem mem_installed_listed : name ∈ (listed x true o).installed ↔
    name = x.name ∨ name ∈ o.installed := by
  have hrelisted : ∀ (kind : ExtensionKind) (l : NameMap Value),
      name ∈ (relisted x true kind l).names ↔ kind = x.kind ∧ name = x.name ∨ name ∈ l.names := by
    intro kind l
    rw [mem_names_relisted]
    split
    · rename_i h
      simp [h]
    · rename_i h
      simp [h]
  simp only [ConfigObject.mem_installed_iff, extensionList_listed, hrelisted]
  constructor
  · rintro ⟨kind, ⟨-, h⟩ | h⟩
    · exact .inl h
    · exact .inr ⟨kind, h⟩
  · rintro (h | ⟨kind, h⟩)
    · exact ⟨x.kind, .inl ⟨rfl, h⟩⟩
    · exact ⟨kind, .inr h⟩

/-- An object that holds nothing else is rewritten to one. -/
theorem tidy_listed (h : o.Tidy) : (listed x installed o).Tidy where
  keys := by
    have hmodule : (withList x installed o .module).keys = o.keys :=
      Mapping.keys_insertName (h.containsName .module)
    have htheme : (withList x installed o .module).containsName "theme" = true := by
      rw [Mapping.containsName, withList, Mapping.getName?_insertName_of_ne _ _ (by decide)]
      exact h.containsName .theme
    rw [listed_eq]
    exact ((Mapping.keys_insertName htheme).trans hmodule) ▸ h.keys
  lists := by
    intro kind
    rw [getName?_listed, extensionList_listed]
  zero := by
    intro kind name v hv
    rw [extensionList_listed, get?_relisted] at hv
    split at hv
    · exact (Option.some.inj (Option.ite_none_right_eq_some.mp hv).2).symm
    · exact h.zero kind name v hv

theorem isWellFormed_withList (ho : o.isWellFormed = true) :
    (withList x installed o kind).isWellFormed = true := by
  refine Mapping.isWellFormed_insertName ho (Mapping.isWellFormed_ofNames
    (NameMap.nodup_names _) fun e he => ?_)
  have he := NameMap.mem_entries_iff.mp he
  rw [get?_relisted] at he
  split at he
  · obtain ⟨-, hzero⟩ := Option.ite_none_right_eq_some.mp he
    rw [← Option.some.inj hzero]
    rfl
  · exact ConfigObject.isWellFormed_of_extensionList ho he

theorem isWellFormed_listed (ho : o.isWellFormed = true) :
    (listed x installed o).isWellFormed = true := by
  rw [listed_eq]
  exact isWellFormed_withList (isWellFormed_withList ho)

end Catalog

namespace Storage

/-- What an object that may be missing lists as installed. -/
def installedIn (oo : Option ConfigObject) : List String := oo.elim [] ConfigObject.installed

theorem Shows.installedExtensions {s : Storage} {m : Snapshot} (h : s.Shows m) (fs : Files) :
    s.installedExtensions fs
      = .ok (installedIn (m.object? defaultCollection coreExtension)) := by
  rw [Storage.installedExtensions, h.read?]
  cases m.object? defaultCollection coreExtension <;> rfl

end Storage

/-- What can be read as the extensions of a snapshot. -/
abbrev Snapshot.installed (m : Snapshot) : List String :=
  Storage.installedIn (m.object? defaultCollection coreExtension)

end Cookbook
