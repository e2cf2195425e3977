import Cookbook.Proofs.Files.Places
import Cookbook.Proofs.Recipe.Tree
import Cookbook.Proofs.Yaml.Printing

/-!
# Manifests read twice

A manifest is read when its recipe is loaded, and again when another recipe wants to know what it
installs and which recipes it lists. The second reading checks nothing: it looks for two keys and
takes the strings it finds. For a recipe that could be loaded the two agree.

What could set them apart are keys with tags, which loading sees through and the look-up does not.
They break the rule for keys: in the text of such a key the tag stands in front.

## Main results

* `Manifest.stringsUnder_of_parse`: the two readings of a manifest.
* `Application.needsOf_of_load`: what a recipe installs and lists, read from where it was found.
-/

namespace Cookbook

namespace Value

variable {v : Value}

theorem untagged_of_isNull (h : v.isNull = true) : v.untagged = .null := by
  rw [isNull] at h
  split at h
  · assumption
  · cases h

theorem asSequence?_of_isNull (h : v.isNull = true) : v.asSequence? = none := by
  rw [asSequence?, untagged_of_isNull h]

theorem asMapping?_of_isNull (h : v.isNull = true) : v.asMapping? = none := by
  rw [asMapping?, untagged_of_isNull h]

end Value

namespace Manifest

variable {data v : Value} {root : Mapping} {name : String} {l : List String}

/-! ### Keys -/

theorem stringOf_eq_ok_iff {s : String} : stringOf v = .ok s ↔ v.asString? = some s := by
  rw [stringOf]
  split
  · rename_i heq
    rw [heq, Option.some.injEq, Except.ok.injEq]
  · rename_i heq
    rw [heq]
    simp [unexpected]

/-- Keys that no value but a string is printed as. -/
def areWords (known : List String) : Bool :=
  known.all fun key =>
    key.toList.all Char.isLower && !List.contains ["", "null", "true", "false"] key

/-- A key that is known by its text is a string without a tag. -/
theorem eq_string_of_keyText {k : Value} {known : List String} (hwords : areWords known = true)
    (hknown : keyText k ∈ known) : k = .string (keyText k) := by
  have hword := List.all_eq_true.mp hwords _ hknown
  rw [Bool.and_eq_true, Bool.not_eq_true', List.all_eq_true, ← Bool.not_eq_true,
    List.contains_iff_mem] at hword
  obtain ⟨hlower, hnot⟩ := hword
  cases hk : Yaml.isWordLike k with
  | true =>
    cases k with
    | string s => rfl
    | null => exact absurd (by decide +kernel) hnot
    | bool b => exact absurd (by cases b <;> decide +kernel) hnot
    | _ => cases hk
  | false =>
    have hmark : ∀ s, Yaml.print k = .ok s → Text.HasMark (Text.trim s) := fun s hs =>
      (Yaml.hasMark_of_print hs hk).trim
    have hempty : keyText k ≠ "" := fun h => hnot (by rw [h]; decide)
    have htext : Text.HasMark (keyText k) := by
      unfold keyText at hempty ⊢
      split
      · cases hk
      · split
        · rename_i hs
          exact hmark _ hs
        · rename_i he
          simp [he] at hempty
    obtain ⟨c, hc, -, hc'⟩ := htext
    rw [hlower c hc] at hc'
    cases hc'

/-- The rule for keys. -/
theorem keyText_mem_of_violations {context : ManifestContext} {id : String}
    (h : violations context id data = []) : ∃ root, data.asMapping? = some root ∧
      ∀ e ∈ root.entries, keyText e.1 ∈ topKeys := by
  rw [violations] at h
  split at h
  · cases h
  · rename_i root hroot
    refine ⟨root, hroot, fun e he => ?_⟩
    have hkeys : keyViolations "" topKeys root = [] := by
      simp only [List.append_assoc, List.append_eq_nil_iff] at h
      exact h.1
    rw [keyViolations, List.filterMap_eq_nil_iff] at hkeys
    have hkey := hkeys _ (List.mem_map_of_mem (List.mem_map_of_mem he))
    split at hkey
    · rename_i hknown
      exact List.contains_iff_mem.mp hknown
    · cases hkey

/-! ### Fields -/

/-- The fields of a mapping are its entries under strings. -/
theorem exists_of_fieldsOf {known : List String} {fields : List (String × Value)}
    (h : fieldsOf known v = .ok fields) : ∃ es, entriesOf v = .ok es ∧
      (∀ f ∈ fields, ∃ k, (k, f.2) ∈ es ∧ k.asString? = some f.1) ∧
      ∀ e ∈ es, ∃ key, (key, e.2) ∈ fields ∧ e.1.asString? = some key := by
  obtain ⟨es, hes, h⟩ := Except.bind_eq_ok_iff.mp h
  refine ⟨es, hes, fun f hf => ?_, fun e he => ?_⟩
  · obtain ⟨⟨k, w⟩, he, h⟩ := Except.exists_of_mapM_eq_ok h f hf
    obtain ⟨key, hkey, h⟩ := Except.bind_eq_ok_iff.mp h
    split at h
    · cases h
      exact ⟨k, he, stringOf_eq_ok_iff.mp hkey⟩
    · cases h
  · obtain ⟨k, w⟩ := e
    obtain ⟨f, hf, h⟩ := Except.exists_of_mem_mapM h _ he
    obtain ⟨key, hkey, h⟩ := Except.bind_eq_ok_iff.mp h
    split at h
    · cases h
      exact ⟨key, hf, stringOf_eq_ok_iff.mp hkey⟩
    · cases h

/-- Apart from the configuration, the entries that are not null are kept as they are. -/
theorem entries_withoutNulls {es : List (Value × Value)} (hroot : data.asMapping? = some root)
    (h : entriesOf (withoutNulls data) = .ok es) :
    (∀ e ∈ es, e.1.same (.string "config") = false → e ∈ root.entries) ∧
      ∀ e ∈ root.entries, e.1.same (.string "config") = false → e.2.isNull = false → e ∈ es := by
  cases data with
  | map entries =>
    cases hroot
    cases h
    constructor
    · intro e he hkey
      obtain ⟨f, hf, rfl⟩ := List.mem_map.mp he
      have hf := (List.mem_filter.mp hf).1
      split at hkey
      · rename_i hconfig
        exact absurd (hconfig.symm.trans hkey) (by simp)
      · rename_i hconfig
        rwa [if_neg hconfig]
    · intro e he hkey hnull
      refine List.mem_map.mpr ⟨e, List.mem_filter.mpr ⟨he, by rw [hnull]; rfl⟩, ?_⟩
      rw [if_neg (by simp [hkey])]
  | tagged tag v =>
    rw [show withoutNulls (.tagged tag v) = .tagged tag v from rfl, entriesOf] at h
    split at h
    · rename_i hnull
      rw [Value.asMapping?_of_isNull hnull] at hroot
      cases hroot
    · rw [hroot] at h
      cases h
      exact ⟨fun e he _ => he, fun e he _ _ => he⟩
  | _ => cases hroot

theorem filterMap_asString?_of_mapM {items : List Value} (h : items.mapM stringOf = .ok l) :
    items.filterMap Value.asString? = l := by
  induction items generalizing l with
  | nil =>
    cases h
    rfl
  | cons item items ih =>
    rw [List.mapM_cons] at h
    obtain ⟨s, hs, h⟩ := Except.bind_eq_ok_iff.mp h
    obtain ⟨rest, hrest, h⟩ := Except.bind_eq_ok_iff.mp h
    cases h
    rw [List.filterMap_cons, stringOf_eq_ok_iff.mp hs, ih hrest]

theorem filterMap_asString?_of_stringsOf (h : stringsOf v = .ok l) :
    (v.asSequence?).elim [] (·.filterMap Value.asString?) = l := by
  obtain ⟨items, hitems, h⟩ := Except.bind_eq_ok_iff.mp h
  rw [itemsOf] at hitems
  split at hitems
  · rename_i hnull
    cases hitems
    cases h
    rw [Value.asSequence?_of_isNull hnull]
    rfl
  · split at hitems
    · rename_i heq
      cases hitems
      rw [heq]
      exact filterMap_asString?_of_mapM h
    · cases hitems

/-- A list of strings that was taken out of a manifest is what stands under its key. -/
theorem stringsUnder_of_fieldOf {fields : List (String × Value)}
    (hroot : data.asMapping? = some root) (hdata : data.isWellFormed = true)
    (hkeys : ∀ e ∈ root.entries, keyText e.1 ∈ topKeys)
    (hfields : fieldsOf topKeys (withoutNulls data) = .ok fields) (hname : name ≠ "config")
    (h : fieldOf fields name stringsOf (.ok []) = .ok l) :
    Discovery.stringsUnder data name = l := by
  have hwf : root.isWellFormed = true := Value.isWellFormed_of_asMapping? hdata hroot
  obtain ⟨es, hes, hfrom, hto⟩ := exists_of_fieldsOf hfields
  obtain ⟨hkept, hall⟩ := entries_withoutNulls hroot hes
  have hother : (Value.string name).same (.string "config") = false := by
    simp [Value.same, hname]
  rw [Discovery.stringsUnder, hroot, Option.bind_some]
  rw [fieldOf] at h
  split at h
  · rename_i key v hfind
    have hkey : key = name := by simpa using List.find?_some hfind
    subst hkey
    obtain ⟨k, hk, hstring⟩ := hfrom _ (List.mem_of_find?_eq_some hfind)
    have hmem : (k, v) ∈ root.entries := by
      refine hkept _ hk ?_
      by_contra hconfig
      have hk : k = .string "config" := Mapping.same_string_iff.mp (Bool.not_eq_false _ ▸ hconfig)
      rw [hk] at hstring
      exact hname (Option.some.inj hstring).symm
    have hk : k = .string (keyText k) := eq_string_of_keyText (by decide) (hkeys _ hmem)
    rw [hk] at hstring hmem
    rw [show keyText k = key from Option.some.inj hstring] at hmem
    rw [Mapping.getName?_of_mem hwf hmem]
    exact filterMap_asString?_of_stringsOf h
  · rename_i hnone
    cases h
    cases hget : root.getName? name with
    | none => rfl
    | some v =>
      have hmem := Mapping.mem_of_getName? hget
      cases hnull : v.isNull with
      | true =>
        rw [Option.bind_some, Value.asSequence?_of_isNull hnull]
        rfl
      | false =>
        obtain ⟨key, hfield, hstring⟩ := hto _ (hall _ hmem hother hnull)
        cases hstring
        have hnot := List.find?_eq_none.mp hnone _ hfield
        simp at hnot

/-- The two readings of a manifest. -/
theorem stringsUnder_of_parse {fs : Files} {context : ManifestContext} {path : Path} {id : String}
    {m : Manifest} (h : parse fs context path id = .ok m) :
    ∃ data, readValue fs path = .ok data ∧ Discovery.stringsUnder data "recipes" = m.recipes ∧
      Discovery.stringsUnder data "install" = m.install := by
  obtain ⟨data, hdata, h⟩ := Except.bind_eq_ok_iff.mp h
  dsimp only at h
  split at h
  · cases h
  · rename_i hnone
    have hviolations : violations context id data = [] := by simpa using hnone
    obtain ⟨root, hroot, hkeys⟩ := keyText_mem_of_violations hviolations
    have hwf := isWellFormed_of_readValue hdata
    split at h
    · rename_i m' hm
      cases h
      obtain ⟨fields, hfields, h⟩ := Except.bind_eq_ok_iff.mp hm
      obtain ⟨_, -, h⟩ := Except.bind_eq_ok_iff.mp h
      obtain ⟨_, -, h⟩ := Except.bind_eq_ok_iff.mp h
      obtain ⟨_, -, h⟩ := Except.bind_eq_ok_iff.mp h
      obtain ⟨recipes, hrecipes, h⟩ := Except.bind_eq_ok_iff.mp h
      obtain ⟨install, hinstall, h⟩ := Except.bind_eq_ok_iff.mp h
      obtain ⟨_, -, h⟩ := Except.bind_eq_ok_iff.mp h
      obtain ⟨_, -, h⟩ := Except.bind_eq_ok_iff.mp h
      cases h
      exact ⟨data, hdata, stringsUnder_of_fieldOf hroot hwf hkeys hfields (by decide) hrecipes,
        stringsUnder_of_fieldOf hroot hwf hkeys hfields (by decide) hinstall⟩
    · cases h

/-- What a manifest says does not depend on the path that leads to it. -/
theorem readValue_eq_ok_of_get {fs : Files} {p q : Path} (h : fs.get p = fs.get q)
    (hp : readValue fs p = .ok v) : readValue fs q = .ok v := by
  have hfile : fs.isFile q = fs.isFile p := by rw [Files.isFile, Files.isFile, h]
  have htext : fs.readText q = fs.readText p := by rw [Files.readText, Files.readText, h]
  unfold readValue at hp ⊢
  rw [hfile, htext]
  split at hp
  · cases hp
  · rename_i hthere
    rw [if_neg hthere]
    split at hp
    · cases hp
    · split at hp
      · cases hp
      · rename_i hblank
        rw [if_neg hblank]
        split at hp
        · cases hp
        · assumption

end Manifest

namespace Discovery

variable {fs : Files} {dir dir' : Path}

/-- What a recipe needs does not depend on the path that leads to its manifest. -/
theorem needsOf_congr (h : fs.get (manifestFile dir) = fs.get (manifestFile dir')) :
    needsOf fs dir = needsOf fs dir' := by
  rw [needsOf, needsOf]
  cases hread : Manifest.readValue fs (manifestFile dir) with
  | ok v => rw [Manifest.readValue_eq_ok_of_get h hread]
  | error e =>
    cases hread' : Manifest.readValue fs (manifestFile dir') with
    | error e' => rfl
    | ok v =>
      rw [Manifest.readValue_eq_ok_of_get h.symm hread'] at hread
      cases hread

end Discovery

namespace Application

variable {fs : Files} {active : Storage} {a : Application} {dir : Path} {r : Recipe}

theorem needsOf_path (h : a.load fs active dir = .ok r) :
    Discovery.needsOf fs r.path = (r.install.extensions, r.recipes) := by
  obtain ⟨_, -, h⟩ := Except.bind_eq_ok_iff.mp h
  obtain ⟨m, hm, h⟩ := Except.bind_eq_ok_iff.mp h
  obtain ⟨install, hinstall, h⟩ := Except.bind_eq_ok_iff.mp h
  obtain ⟨_, -, h⟩ := Except.bind_eq_ok_iff.mp h
  cases h
  obtain ⟨order, -, hinstall⟩ := Except.bind_eq_ok_iff.mp hinstall
  cases hinstall
  obtain ⟨data, hdata, hrecipes, hnames⟩ := Manifest.stringsUnder_of_parse hm
  rw [Discovery.needsOf]
  dsimp only
  rw [hdata, ← hrecipes, ← hnames]

/-- What a recipe installs and which recipes it lists is also read from where it was found. -/
theorem needsOf_of_load (hworking : fs.locate (Files.absolute fs.working) = .ok fs.working)
    (hfound : Discovery.Found fs dir) (h : a.load fs active dir = .ok r) :
    Discovery.needsOf fs dir = (r.install.extensions, r.recipes) := by
  obtain ⟨place, -, hplace, hpath⟩ := hfound.recipePath_eq
  rw [← needsOf_path h, (eq_of_load h).1, hpath]
  refine Discovery.needsOf_congr ?_
  exact Files.get_join_eq hplace (Files.locate_absolute hworking hplace) (by decide) (by decide)

end Application

end Cookbook
