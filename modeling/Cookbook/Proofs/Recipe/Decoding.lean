import Cookbook.Proofs.Recipe.Rules

/-!
# Manifests that break no rule, taken apart

The rules for manifests and the way a manifest is taken apart are two descriptions of one format. A
value that breaks no rule has its fields where they are looked for, whether keys that are null have
been taken out or not, and each field has the shape that is expected. There is one place where the
two differ: a key of the imports that is no string is known by its text, and the names in a list of
imports may have tags, but neither can be taken apart.

## Main definitions

* `Manifest.Stripped`: what is found under a key that may have been taken out for being null.
* `Manifest.importsFrom`, `Manifest.configFrom`: what is read of the configuration.
* `Manifest.AreReadable`: imports that can be taken apart.

## Main results

* `Manifest.exists_ofValue_eq`: what is taken out of a value that breaks no rule.
* `Manifest.parse_of_readValue`: what comes of reading a manifest.
-/

namespace Cookbook

namespace Manifest

variable {data v w : Value} {es entries : List (Value × Value)} {known l : List String}
  {name : String} {b : Bool}

/-! ### Fields -/

theorem keyText_string (s : String) : keyText (.string s) = s := rfl

theorem fieldsOf_eq (hes : entriesOf v = .ok es)
    (hkeys : ∀ e ∈ es, ∃ key ∈ known, e.1 = .string key) :
    fieldsOf known v = .ok (es.map fun e => (keyText e.1, e.2)) := by
  rw [fieldsOf, hes]
  refine Except.mapM_eq_ok_map fun e he => ?_
  obtain ⟨k, v⟩ := e
  obtain ⟨key, hkey, rfl : k = .string key⟩ := hkeys _ he
  exact if_pos (List.contains_iff_mem.mpr hkey)

theorem find?_fields (hkeys : ∀ e ∈ es, ∃ key ∈ known, e.1 = .string key) :
    (es.map fun e => (keyText e.1, e.2)).find? (fun e => e.1 == name)
      = ((Mapping.mk es).getName? name).map fun v => (name, v) := by
  rw [Mapping.getName?, Mapping.get?]
  induction es with
  | nil => rfl
  | cons e es ih =>
    obtain ⟨k, v⟩ := e
    obtain ⟨key, -, rfl : k = .string key⟩ := hkeys _ List.mem_cons_self
    have hrest := ih fun e he => hkeys e (List.mem_cons_of_mem _ he)
    rw [List.map_cons, List.find?_cons, List.find?_cons, keyText_string, hrest, Value.same]
    by_cases hname : key = name
    · simp [hname]
    · rw [show (key == name) = false from beq_eq_false_iff_ne.mpr hname]

/-- A field is what the mapping has under its name. -/
theorem fieldOf_eq_elim {α : Type} {f : Value → Except String α} {default : Except String α}
    (hkeys : ∀ e ∈ es, ∃ key ∈ known, e.1 = .string key) :
    fieldOf (es.map fun e => (keyText e.1, e.2)) name f default
      = ((Mapping.mk es).getName? name).elim default f := by
  rw [fieldOf, find?_fields hkeys]
  cases (Mapping.mk es).getName? name <;> rfl

/-! ### Keys that are null -/

/-- What is found under a key, where it may have been taken out for being null. -/
def Stripped (before after : Option Value) : Prop :=
  after = before ∨ after = before.filter (!·.isNull)

theorem getName?_filter (hdistinct : es.Pairwise fun e f => e.1.same f.1 = false)
    (p : Value → Bool) : (Mapping.mk (es.filter fun e => p e.2)).getName? name
      = ((Mapping.mk es).getName? name).filter p := by
  simp only [Mapping.getName?, Mapping.get?]
  induction es with
  | nil => rfl
  | cons e es ih =>
    rw [List.pairwise_cons] at hdistinct
    have hrest := ih hdistinct.2
    by_cases hkey : e.1.same (.string name) = true
    · have hnone : (es.filter fun e => p e.2).find? (fun e => e.1.same (.string name)) = none := by
        rw [List.find?_eq_none]
        intro f hf hsame
        have hdiff := hdistinct.1 f (List.mem_filter.mp hf).1
        rw [Mapping.same_string_iff.mp hkey, Mapping.same_string_iff.mp hsame] at hdiff
        simp [Value.same] at hdiff
      by_cases hp : p e.2 = true
      · simp [hp, hkey, Option.filter]
      · simp [hp, hkey, Option.filter, hnone]
    · by_cases hp : p e.2 = true
      · simpa [hp, hkey] using hrest
      · simpa [hp, hkey] using hrest

/-- The entries that are left of a mapping. -/
theorem exists_of_dropNulls (hv : v.isWellFormed = true) (hmap : v.untagged = .map entries)
    (hw : w = v ∨ w = dropNulls v) :
    ∃ es, w.untagged = .map es ∧ (∀ e ∈ es, e ∈ entries) ∧
      ∀ name, Stripped ((Mapping.mk entries).getName? name) ((Mapping.mk es).getName? name) := by
  by_cases hplain : ∃ es, v = .map es
  · obtain ⟨es, rfl⟩ := hplain
    cases hmap
    rcases hw with rfl | rfl
    · exact ⟨_, rfl, fun e he => he, fun name => .inl rfl⟩
    · refine ⟨_, rfl, fun e he => (List.mem_filter.mp he).1, fun name => .inr ?_⟩
      exact getName?_filter (Value.areEntriesWellFormed_iff.mp hv).2 fun v => !v.isNull
  · -- nothing is taken out of a tagged mapping
    have hsame : dropNulls v = v := by
      cases v with
      | map es => exact absurd ⟨es, rfl⟩ hplain
      | _ => rfl
    rw [hsame, or_self] at hw
    exact ⟨entries, hw ▸ hmap, fun e he => he, fun name => .inl rfl⟩

/-- Changing what stands under one key. -/
theorem getName?_map_at (key : String) (f : Value → Value) :
    (Mapping.mk (es.map fun e => if e.1.same (.string key) then (e.1, f e.2) else e)).getName? name
      = ((Mapping.mk es).getName? name).map (if name = key then f else id) := by
  simp only [Mapping.getName?, Mapping.get?]
  induction es with
  | nil => rfl
  | cons e es ih =>
    rw [List.map_cons, List.find?_cons, List.find?_cons]
    have hkey : (if e.1.same (.string key) then (e.1, f e.2) else e).1 = e.1 := by split <;> rfl
    rw [hkey]
    cases hname : e.1.same (.string name) with
    | false => exact ih
    | true =>
      rw [Mapping.same_string_iff.mp hname]
      by_cases heq : name = key
      · simp [heq, Value.same]
      · simp [heq, Value.same]

theorem entriesOf_of_untagged (h : v.untagged = .map es) : entriesOf v = .ok es := by
  have hroot : v.asMapping? = some ⟨es⟩ := asMapping?_eq_some_iff.mpr h
  rw [entriesOf, hroot, Value.isNull, h]
  rfl

/-- The entries that are left of a manifest. -/
theorem exists_of_withoutNulls (hdata : data.isWellFormed = true)
    (hmap : data.untagged = .map entries) :
    ∃ es, entriesOf (withoutNulls data) = .ok es ∧ (∀ e ∈ es, ∃ f ∈ entries, f.1 = e.1) ∧
      (∀ name ≠ "config",
        Stripped ((Mapping.mk entries).getName? name) ((Mapping.mk es).getName? name)) ∧
      ∃ config, Stripped ((Mapping.mk entries).getName? "config") config ∧
        ((Mapping.mk es).getName? "config" = config
          ∨ (Mapping.mk es).getName? "config" = config.map dropNulls) := by
  obtain ⟨es, hes, hfrom, hstripped⟩ := exists_of_dropNulls hdata hmap (.inr rfl)
  by_cases hplain : ∃ es', dropNulls data = .map es'
  · obtain ⟨es', heq⟩ := hplain
    obtain rfl : es' = es := by simpa [heq, Value.untagged] using hes
    have hwithout : withoutNulls data = .map (es'.map fun e =>
        if e.1.same (.string "config") then (e.1, dropNulls e.2) else e) := by
      rw [withoutNulls, heq]
    refine ⟨_, by rw [hwithout]; exact entriesOf_of_untagged rfl, ?_, fun name hname => ?_, _,
      hstripped "config", ?_⟩
    · intro e he
      obtain ⟨f, hf, rfl⟩ := List.mem_map.mp he
      refine ⟨f, hfrom f hf, ?_⟩
      split <;> rfl
    · rw [getName?_map_at, if_neg hname, Option.map_id]
      exact hstripped name
    · rw [getName?_map_at, if_pos rfl]
      exact .inr rfl
  · have hsame : withoutNulls data = dropNulls data := by
      rw [withoutNulls]
      split
      · rename_i es' heq
        exact absurd ⟨es', heq⟩ hplain
      · rfl
    refine ⟨es, ?_, fun e he => ⟨e, hfrom e he, rfl⟩, fun name _ => hstripped name, _,
      hstripped "config", .inl rfl⟩
    rw [hsame]
    exact entriesOf_of_untagged hes

/-! ### What is under the keys -/

variable {before after : Option Value} {context : ManifestContext} {available : List String}
  {imports actions : List (Value × Value)} {id : String}

theorem Stripped.eq_some_or_isNull (h : Stripped (some v) after) :
    after = some v ∨ after = none ∧ v.isNull = true := by
  rcases h with rfl | rfl
  · exact .inl rfl
  · cases hv : v.isNull <;> simp [Option.filter, hv]

theorem Stripped.eq_some (h : Stripped (some v) after) (hv : v.isNull = false) :
    after = some v := by
  rcases h.eq_some_or_isNull with h | ⟨-, hnull⟩
  · exact h
  · rw [hv] at hnull
    cases hnull

theorem Stripped.eq_none (h : Stripped none after) : after = none := by
  rcases h with rfl | rfl <;> rfl

theorem isNull_eq_false (h : v.untagged ≠ .null) : v.isNull = false := by
  rw [← Bool.not_eq_true, isNull_iff]
  exact h

theorem exists_text {allowed : Char → Prop} {d : Except String String}
    (hdefault : before = none → ∃ t, d = .ok t)
    (h : ∀ v, before = some v → (Sight.checked b).Line allowed v) (hs : Stripped before after) :
    ∃ t, after.elim d stringOf = .ok t := by
  cases before with
  | none =>
    rw [hs.eq_none]
    exact hdefault rfl
  | some v =>
    obtain ⟨t, rfl : v = .string t, -⟩ := h v rfl
    rw [hs.eq_some rfl]
    exact ⟨t, rfl⟩

theorem strings_of_lists (h : (Sight.checked b).Lists before l) (hs : Stripped before after) :
    after.elim (.ok []) stringsOf = .ok l := by
  cases before with
  | none =>
    rw [hs.eq_none, show l = [] from h]
    rfl
  | some v =>
    rcases lists_some_iff.mp h with ⟨hnull, rfl⟩ | ⟨hseq, -⟩
    · rcases hs.eq_some_or_isNull with rfl | ⟨rfl, -⟩
      · rw [Option.elim_some, stringsOf, itemsOf, if_pos (isNull_iff.mpr hnull)]
        rfl
      · rfl
    · have hnull : v.isNull = false := isNull_eq_false (by simp [hseq])
      have hitems : itemsOf v = .ok (l.map .string) := by
        rw [itemsOf, hnull, asSequence?_eq_some_iff.mpr hseq]
        rfl
      have hstrings : (l.map Value.string).mapM stringOf
          = .ok ((l.map Value.string).map keyText) := by
        refine Except.mapM_eq_ok_map fun item hitem => ?_
        obtain ⟨t, -, rfl⟩ := List.mem_map.mp hitem
        rfl
      rw [hs.eq_some hnull, Option.elim_some, stringsOf, hitems]
      refine hstrings.trans ?_
      simp [keyText_string, Function.comp_def]

theorem entries_of_section (h : (Sight.checked b).Section before es) (hs : Stripped before after) :
    after = none ∧ es = [] ∨ ∃ v, after = some v ∧ entriesOf v = .ok es := by
  rcases section_iff.mp h with ⟨rfl | rfl, rfl⟩ | rfl
  · exact .inl ⟨hs.eq_none, rfl⟩
  · rcases hs.eq_some_or_isNull with rfl | ⟨rfl, -⟩
    · exact .inr ⟨_, rfl, rfl⟩
    · exact .inl ⟨rfl, rfl⟩
  · exact .inr ⟨_, hs.eq_some rfl, rfl⟩

/-- The imports that entries say. -/
def importsFrom (es : List (Value × Value)) : Except String (NameMap ImportSpec) := do
  let es ← es.mapM fun (k, v) => do return (← stringOf k, ← importOf v)
  return NameMap.ofList es

theorem imports_of_section (h : (Sight.checked b).Section before es) (hs : Stripped before after) :
    after.elim (.ok NameMap.empty) importsOf = importsFrom es := by
  rcases entries_of_section h hs with ⟨rfl, rfl⟩ | ⟨v, rfl, hes⟩
  · rfl
  · rw [Option.elim_some, importsOf, hes]
    rfl

theorem actions_of_section (h : (Sight.checked b).Section before es) (hs : Stripped before after) :
    after.elim (.ok Mapping.empty) (Mapping.mk <$> entriesOf ·) = .ok ⟨es⟩ := by
  rcases entries_of_section h hs with ⟨rfl, rfl⟩ | ⟨v, rfl, hes⟩
  · rfl
  · rw [Option.elim_some, hes]
    rfl

/-- The configuration is taken apart up to the imports. -/
theorem configOf_eq (hv : v.isWellFormed = true) (hmap : v.untagged = .map entries)
    (h : (Sight.checked b).Configures context available ⟨entries⟩ imports actions)
    (hw : w = v ∨ w = dropNulls v) : configOf w = (importsFrom imports).map fun imports =>
      { imports, actions := ⟨actions⟩ } := by
  obtain ⟨es, hes, hfrom, hstripped⟩ := exists_of_dropNulls hv hmap hw
  have hkeys : ∀ e ∈ es, ∃ key ∈ configKeys, e.1 = .string key := fun e he => h.keys e (hfrom e he)
  rw [configOf, fieldsOf_eq (entriesOf_of_untagged hes) hkeys]
  change (do
    let imports ← fieldOf _ "import" importsOf (.ok NameMap.empty)
    let actions ← fieldOf _ "actions" (Mapping.mk <$> entriesOf ·) (.ok Mapping.empty)
    return { imports, actions } : Except String ConfigSection) = _
  rw [fieldOf_eq_elim hkeys, fieldOf_eq_elim hkeys, imports_of_section h.import_entries
    (hstripped _), actions_of_section h.action_entries (hstripped _)]
  cases importsFrom imports <;> rfl

/-! ### The whole manifest -/

variable {recipes install : List String} {root : Mapping}

/-- The configuration that entries say. -/
def configFrom (data : Value) : Except String ConfigSection :=
  (importsFrom (sectionEntries data "import")).map fun imports =>
    { imports, actions := ⟨sectionEntries data "actions"⟩ }

theorem configFrom_eq_ok (h : ∀ key, sectionEntries data key = []) : configFrom data = .ok {} := by
  rw [configFrom, h, h]
  rfl

theorem configOf_of_isNull (h : v.isNull = true) : configOf v = .ok {} := by
  have hes : entriesOf v = .ok [] := if_pos h
  rw [configOf, fieldsOf, hes]
  rfl

theorem dropNulls_of_isNull (h : v.isNull = true) : dropNulls v = v := by
  cases v with
  | map entries => cases h
  | _ => rfl

theorem sectionEntries_eq_nil (hroot : data.asMapping? = some root)
    (h : (root.getName? "config").bind (·.asMapping?) = none) (key : String) :
    sectionEntries data key = [] := by
  rw [sectionEntries, hroot, Option.bind_some, h]
  rfl

theorem config_of_follows (hdata : data.isWellFormed = true) (hmap : data.untagged = .map entries)
    (h : Follows (.checked b) context id ⟨entries⟩ recipes install)
    (hs : Stripped ((Mapping.mk entries).getName? "config") before)
    (hafter : after = before ∨ after = before.map dropNulls) :
    after.elim (.ok {}) configOf = configFrom data := by
  have hroot : data.asMapping? = some ⟨entries⟩ := asMapping?_eq_some_iff.mpr hmap
  cases hconfig : (Mapping.mk entries).getName? "config" with
  | none =>
    rw [hconfig] at hs
    rw [hs.eq_none, Option.map_none, or_self] at hafter
    rw [hafter, configFrom_eq_ok (sectionEntries_eq_nil hroot (by rw [hconfig]; rfl))]
    rfl
  | some v =>
    rw [hconfig] at hs
    rcases h.config v hconfig with hnull | ⟨config, imports, actions, hv, hconfigures⟩
    · have hnull : v.isNull = true := isNull_iff.mpr hnull
      have hnone : ((Mapping.mk entries).getName? "config").bind (·.asMapping?) = none := by
        rw [hconfig]
        exact Value.asMapping?_of_isNull hnull
      rw [configFrom_eq_ok (sectionEntries_eq_nil hroot hnone)]
      rcases hs.eq_some_or_isNull with rfl | ⟨rfl, -⟩
      · rw [Option.map_some, dropNulls_of_isNull hnull, or_self] at hafter
        rw [hafter]
        exact configOf_of_isNull hnull
      · rw [Option.map_none, or_self] at hafter
        rw [hafter]
        rfl
    · have hnull : v.isNull = false := isNull_eq_false (by rw [show v.untagged = _ from hv]; nofun)
      have hwf : v.isWellFormed = true :=
        Mapping.isWellFormed_of_getName? (Value.isWellFormed_of_asMapping? hdata hroot) hconfig
      have hsection : ∀ {key es}, (Sight.checked b).Section ((Mapping.mk config).getName? key) es →
          sectionEntries data key = es :=
        sectionEntries_eq hmap hconfig (asMapping?_eq_some_iff.mpr hv)
      rw [configFrom, hsection hconfigures.import_entries, hsection hconfigures.action_entries]
      rw [hs.eq_some hnull] at hafter
      rcases hafter with rfl | rfl
      · exact configOf_eq hwf hv hconfigures (.inl rfl)
      · exact configOf_eq hwf hv hconfigures (.inr rfl)

/-- What is taken out of a value that breaks no rule: all there is, unless an import cannot be
read. -/
theorem exists_ofValue_eq (hdata : data.isWellFormed = true)
    (h : Conforms (.checked b) context id data) : ∃ root recipes install,
      data.asMapping? = some root ∧ (Sight.checked b).Lists (root.getName? "recipes") recipes
        ∧ (Sight.checked b).Lists (root.getName? "install") install
        ∧ ∃ name description type content, ofValue data = (configFrom data).map fun config =>
            { name, description, type, recipes, install, config, content } := by
  obtain ⟨entries, hmap, recipes, install, h⟩ := h
  obtain ⟨es, hes, hfrom, hstripped, config, hconfig, hafter⟩ := exists_of_withoutNulls hdata hmap
  have hkeys : ∀ e ∈ es, ∃ key ∈ topKeys, e.1 = .string key := by
    intro e he
    obtain ⟨f, hf, hkey⟩ := hfrom e he
    rw [← hkey]
    exact h.keys f hf
  have hroot : data.asMapping? = some ⟨entries⟩ := asMapping?_eq_some_iff.mpr hmap
  obtain ⟨v, hname, hline⟩ := h.name
  obtain ⟨name, hn⟩ := exists_text (d := .error "missing field name")
    (fun hnone => by rw [hname] at hnone; cases hnone)
    (fun w hw => by rw [hname] at hw; cases hw; exact hline) (hstripped "name" (by decide))
  obtain ⟨description, hd⟩ := exists_text (fun _ => ⟨"", rfl⟩) h.description
    (hstripped "description" (by decide))
  obtain ⟨type, ht⟩ := exists_text (fun _ => ⟨"", rfl⟩) h.type (hstripped "type" (by decide))
  have hr := strings_of_lists h.recipe_list (hstripped "recipes" (by decide))
  have hi := strings_of_lists h.install_list (hstripped "install" (by decide))
  have hc := config_of_follows hdata hmap h hconfig hafter
  obtain ⟨content, hcontent⟩ : ∃ content,
      ((Mapping.mk es).getName? "content").elim (.ok .null) .ok
        = (.ok content : Except String Value) := by
    cases (Mapping.mk es).getName? "content" <;> exact ⟨_, rfl⟩
  refine ⟨⟨entries⟩, recipes, install, hroot, h.recipe_list, h.install_list, name, description,
    type, content, ?_⟩
  rw [ofValue, fieldsOf_eq hes hkeys]
  change (do
    let name ← fieldOf _ "name" stringOf (.error "missing field name")
    let description ← fieldOf _ "description" stringOf (.ok "")
    let type ← fieldOf _ "type" stringOf (.ok "")
    let recipes ← fieldOf _ "recipes" stringsOf (.ok [])
    let install ← fieldOf _ "install" stringsOf (.ok [])
    let config ← fieldOf _ "config" configOf (.ok {})
    let content ← fieldOf _ "content" .ok (.ok .null)
    return { name, description, type, recipes, install, config, content } :
      Except String Manifest) = _
  simp only [fieldOf_eq_elim hkeys, hn, hd, ht, hr, hi, hc, hcontent]
  cases configFrom data <;> rfl

/-! ### Imports -/

/-- The imports have strings for keys, and their lists no names with tags. -/
def AreReadable (imports : List (Value × Value)) : Prop :=
  (∀ e ∈ imports, e.1.isString = true) ∧ ArePlain imports

theorem exists_stringOf_iff : (∃ t, stringOf v = .ok t) ↔ v.isString = true := by
  simp only [stringOf_eq_ok_iff, Value.isString, Option.isSome_iff_exists]

theorem exists_importOf_iff (h : (Sight.checked true).Imports v) : (∃ spec, importOf v = .ok spec)
    ↔ ∀ items, v = .seq items → ∀ item ∈ items, item.untagged = item := by
  rcases h with hall | ⟨items, hitems, hnames⟩
  · obtain rfl : v = .string "*" := hall
    exact ⟨fun _ => nofun, fun _ => ⟨_, rfl⟩⟩
  · obtain rfl : v = .seq items := hitems
    have hread : (∃ spec, importOf (.seq items) = .ok spec)
        ↔ ∀ item ∈ items, ∃ t, item = .string t := by
      constructor
      · rintro ⟨spec, hspec⟩ item hitem
        obtain ⟨names, hnames, -⟩ := Except.bind_eq_ok_iff.mp hspec
        obtain ⟨name, -, hname⟩ := Except.exists_of_mem_mapM hnames item hitem
        split at hname
        · exact ⟨_, rfl⟩
        · cases hname
      · intro hstrings
        refine ⟨.names (items.map keyText), ?_⟩
        rw [importOf, Except.mapM_eq_ok_map (g := keyText)]
        · rfl
        · intro item hitem
          obtain ⟨t, rfl⟩ := hstrings item hitem
          rfl
    rw [hread]
    constructor
    · rintro hstrings _ ⟨⟩ item hitem
      obtain ⟨t, rfl⟩ := hstrings item hitem
      rfl
    · intro hplain item hitem
      obtain ⟨t, ht, -⟩ := hnames item hitem
      exact ⟨t, (hplain _ rfl item hitem).symm.trans ht⟩

theorem exists_importsFrom_iff
    (h : ∀ e ∈ imports, (Sight.checked true).Imports e.2) :
    (∃ m, importsFrom imports = .ok m) ↔ AreReadable imports := by
  constructor
  · rintro ⟨m, hm⟩
    obtain ⟨es, hes, -⟩ := Except.bind_eq_ok_iff.mp hm
    have hall : ∀ e ∈ imports, (∃ t, stringOf e.1 = .ok t) ∧ ∃ spec, importOf e.2 = .ok spec := by
      intro e he
      obtain ⟨_, -, hpair⟩ := Except.exists_of_mem_mapM hes e he
      obtain ⟨t, ht, hpair⟩ := Except.bind_eq_ok_iff.mp hpair
      obtain ⟨spec, hspec, -⟩ := Except.bind_eq_ok_iff.mp hpair
      exact ⟨⟨t, ht⟩, spec, hspec⟩
    exact ⟨fun e he => exists_stringOf_iff.mp (hall e he).1,
      fun e he => (exists_importOf_iff (h e he)).mp (hall e he).2⟩
  · rintro ⟨hkeys, hplain⟩
    have hpairs : ∀ e ∈ imports, ∃ p, (do return (← stringOf e.1, ← importOf e.2) :
        Except String (String × ImportSpec)) = .ok p := by
      intro e he
      obtain ⟨t, ht⟩ := exists_stringOf_iff.mpr (hkeys e he)
      obtain ⟨spec, hspec⟩ := (exists_importOf_iff (h e he)).mpr (hplain e he)
      rw [ht, hspec]
      exact ⟨_, rfl⟩
    obtain ⟨es, hes⟩ := Except.exists_mapM_eq_ok hpairs
    refine ⟨NameMap.ofList es, ?_⟩
    rw [importsFrom, hes]
    rfl

theorem imports_of_conforms (h : Conforms (.checked b) context id data) :
    ∀ e ∈ sectionEntries data "import", (Sight.checked b).Imports e.2 := by
  obtain ⟨entries, hmap, recipes, install, h⟩ := h
  have hroot : data.asMapping? = some ⟨entries⟩ := asMapping?_eq_some_iff.mpr hmap
  have hnone : ((Mapping.mk entries).getName? "config").bind (·.asMapping?) = none →
      ∀ e ∈ sectionEntries data "import", (Sight.checked b).Imports e.2 := by
    intro hnone
    rw [sectionEntries_eq_nil hroot hnone]
    nofun
  cases hconfig : (Mapping.mk entries).getName? "config" with
  | none => exact hnone (by rw [hconfig]; rfl)
  | some v =>
    rcases h.config v hconfig with hnull | ⟨config, imports, actions, hv, hconfigures⟩
    · exact hnone (by rw [hconfig]; exact Value.asMapping?_of_isNull (isNull_iff.mpr hnull))
    · rw [sectionEntries_eq hmap hconfig (asMapping?_eq_some_iff.mpr hv) hconfigures.import_entries]
      exact fun e he => (hconfigures.imported e he).2

/-! ### Reading manifests -/

theorem parse_eq {fs : Files} {path : Path} (hread : readValue fs path = .ok data)
    (context : ManifestContext) (id : String) :
    parse fs context path id = match violations context id data with
      | [] => (match ofValue data with
        | .ok m => .ok m
        | .error e => .error (.manifestUnreadable path e))
      | x :: xs => .error (.manifestInvalid path (x :: xs)) := by
  rw [parse, hread]
  change (do
    if !(violations context id data).isEmpty then
      throw (.manifestInvalid path (violations context id data))
    match ofValue data with
    | .ok m => return m
    | .error e => throw (.manifestUnreadable path e) : Except Error Manifest) = _
  cases violations context id data with
  | nil => cases ofValue data <;> rfl
  | cons x xs => rfl

/-- **What comes of reading a manifest.** One that breaks rules is refused for them. Of those that
break none, the ones with readable imports are read, and have all recipes, extensions and actions of
the value in its order; the others cannot be taken apart. -/
theorem parse_of_readValue {fs : Files} {path : Path} (hread : readValue fs path = .ok data) :
    (violations context id data ≠ [] →
      parse fs context path id = .error (.manifestInvalid path (violations context id data)))
    ∧ (violations context id data = [] →
      ((∃ m, parse fs context path id = .ok m) ↔ AreReadable (sectionEntries data "import"))
      ∧ (¬ AreReadable (sectionEntries data "import") →
        ∃ e, parse fs context path id = .error (.manifestUnreadable path e)))
    ∧ ∀ m, parse fs context path id = .ok m → ∃ root, data.asMapping? = some root
      ∧ (Sight.checked true).Lists (root.getName? "recipes") m.recipes
      ∧ (Sight.checked true).Lists (root.getName? "install") m.install
      ∧ m.config.actions.entries = sectionEntries data "actions" := by
  have hparse := parse_eq hread context id
  cases hv : violations context id data with
  | cons x xs =>
    rw [hv] at hparse
    refine ⟨fun _ => hparse, nofun, fun m hm => ?_⟩
    rw [hparse] at hm
    cases hm
  | nil =>
    have hconforms : Conforms (.checked true) context id data :=
      (violations_eq_nil_iff_conforms (.inl rfl)).mp hv
    obtain ⟨root, recipes, install, hroot, hrecipes, hinstall, name, description, type, content,
      hvalue⟩ := exists_ofValue_eq (isWellFormed_of_readValue hread) hconforms
    have hiff := exists_importsFrom_iff (imports_of_conforms hconforms)
    rw [hv, hvalue, configFrom] at hparse
    cases himports : importsFrom (sectionEntries data "import") with
    | ok imports =>
      rw [himports] at hparse hiff
      have hreadable := hiff.mp ⟨imports, rfl⟩
      refine ⟨fun h => absurd rfl h, fun _ => ⟨⟨fun _ => hreadable, fun _ => ⟨_, hparse⟩⟩,
        fun hnot => absurd hreadable hnot⟩, fun m hm => ?_⟩
      rw [hparse] at hm
      cases hm
      exact ⟨root, hroot, hrecipes, hinstall, rfl⟩
    | error e =>
      rw [himports] at hparse hiff
      have hnot : ¬ AreReadable (sectionEntries data "import") := fun h => by
        obtain ⟨m, hm⟩ := hiff.mpr h
        cases hm
      have hnone : ¬ ∃ m, parse fs context path id = .ok m := by
        rintro ⟨m, hm⟩
        rw [hparse] at hm
        cases hm
      refine ⟨fun h => absurd rfl h, fun _ => ⟨⟨fun h => absurd h hnone, fun h => absurd h hnot⟩,
        fun _ => ⟨e, hparse⟩⟩, fun m hm => absurd ⟨m, hm⟩ hnone⟩

/-- A recipe that imports the default configuration of an extension whose name is a number. -/
def numbered : Files where
  tree := .dir [("r", .dir [("recipe.yml",
    .file (.text "name: A\nconfig:\n  import:\n    404: '*'\n"))])]

/-- There is everything that a manifest may mention. -/
def openContext : ManifestContext where
  recipeExists _ := true
  extensionExists _ := true
  availableExtensions install _ := install
  actionExists _ _ := true

/-- A manifest that breaks no rule and cannot be taken apart. -/
theorem unreadable_numbered : ∃ data, readValue numbered ⟨"/r/recipe.yml"⟩ = .ok data
    ∧ violations openContext "r" data = []
    ∧ ∃ e, parse numbered openContext ⟨"/r/recipe.yml"⟩ "r"
      = .error (.manifestUnreadable ⟨"/r/recipe.yml"⟩ e) := by
  have hdata : ∃ data, readValue numbered ⟨"/r/recipe.yml"⟩ = .ok data
      ∧ violations openContext "r" data = []
      ∧ ∃ e ∈ sectionEntries data "import", e.1.isString = false := by decide +kernel
  obtain ⟨data, hread, hnone, e, he, hkey⟩ := hdata
  refine ⟨data, hread, hnone, ((parse_of_readValue hread).2.1 hnone).2 fun hreadable => ?_⟩
  rw [hreadable.1 e he] at hkey
  cases hkey

end Manifest

end Cookbook
