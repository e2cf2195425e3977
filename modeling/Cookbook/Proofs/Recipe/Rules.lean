import Cookbook.Proofs.Recipe.Reading
import Mathlib.Data.List.Enum
import Mathlib.Data.List.Forall2

/-!
# What a manifest has to be

The rules for manifests are checked one after the other, and each reports what it finds. Here they
are read as one property of the value: a manifest breaks none of them exactly if it `Conforms`.

Where a value has a tag, it depends on the place whether the tag is seen through. `Sight` says so
place by place, and the property is stated for any sight. The rules are those for the sight
`Sight.checked`. They are not the rules for any sight that treats all mappings alike: neither for
one that sees through their tags nor for one that does not.

The names in a list of imports are checked below their tags, although a manifest with a tag there
cannot be taken apart afterwards. So the property is stated for manifests without tags there.

## Main definitions

* `Manifest.Sight`: where tags are seen through.
* `Manifest.Conforms`: a value is a manifest as it has to be.

## Main results

* `Manifest.violations_eq_nil_iff`: no rule is broken exactly if the value conforms.
* `Manifest.no_uniform_sight`: mappings with tags are not treated alike.
-/

namespace Cookbook

namespace Manifest

/-! ### Tags -/

/-- Where a tag is seen through, so that a tagged value counts as what is below the tag. -/
structure Sight where
  /-- On a manifest, its configuration and the actions for an expression. -/
  outer : Bool
  /-- On the lists of recipes and extensions. -/
  lists : Bool
  /-- On the two keys of the configuration. -/
  sections : Bool
  /-- On the list of what is imported of an extension. -/
  imports : Bool
  /-- On strings. -/
  strings : Bool
  /-- On the names in a list of what is imported. -/
  names : Bool

/-- What a value counts as. -/
def seen (through : Bool) (v : Value) : Value := if through then v.untagged else v

namespace Sight

/-- The sight that treats mappings, sequences and strings alike wherever they stand. -/
def uniform (mappings sequences strings : Bool) : Sight :=
  ⟨mappings, sequences, mappings, sequences, strings, strings⟩

/-- The sight of the rules, which may see through the tags of imported names. -/
def checked (names : Bool) : Sight := ⟨true, true, false, false, false, names⟩

variable (s : Sight)

/-! ### The parts of a manifest -/

/-- A string that is not empty, of the characters that are allowed. -/
def Line (allowed : Char → Prop) (v : Value) : Prop :=
  ∃ t, seen s.strings v = .string t ∧ t ≠ "" ∧ ∀ c ∈ t.toList, allowed c

/-- What is listed under a key: nothing, or strings that are not empty. -/
def Lists : Option Value → List String → Prop
  | none, l => l = []
  | some v, l => seen s.lists v = .null ∧ l = [] ∨
      ∃ items, seen s.lists v = .seq items
        ∧ List.Forall₂ (fun item t => seen s.strings item = .string t ∧ t ≠ "") items l

/-- The entries under a key of the configuration. -/
def Section : Option Value → List (Value × Value) → Prop
  | none, es => es = []
  | some v, es => seen s.sections v = .null ∧ es = [] ∨ seen s.sections v = .map es

/-- Some dot has a character before it and no line break. -/
def Qualified (name : String) : Prop :=
  ∃ before after, name.toList = before ++ '.' :: after ∧ before ≠ [] ∧ '\n' ∉ before

/-- What is imported of an extension: everything, or objects by their names. -/
def Imports (v : Value) : Prop :=
  seen s.strings v = .string "*" ∨
    ∃ items, seen s.imports v = .seq items
      ∧ ∀ item ∈ items, ∃ t, seen s.names item = .string t ∧ Qualified t

/-- The actions for an expression, of which the part before the first dot says who provides it. -/
def Invokes (context : ManifestContext) (available : List String) (expression : String)
    (v : Value) : Prop :=
  ∃ entries, seen s.outer v = .map entries ∧ entries ≠ []
    ∧ (String.ofList (expression.toList.takeWhile (· ≠ '.')) = "core"
      ∨ String.ofList (expression.toList.takeWhile (· ≠ '.')) ∈ available)
    ∧ ∀ e ∈ entries, context.actionExists (keyText e.1) expression = true

/-- The configuration. -/
structure Configures (context : ManifestContext) (available : List String) (config : Mapping)
    (imports actions : List (Value × Value)) : Prop where
  keys : ∀ e ∈ config.entries, ∃ key ∈ configKeys, e.1 = .string key
  import_entries : s.Section (config.getName? "import") imports
  action_entries : s.Section (config.getName? "actions") actions
  imported : ∀ e ∈ imports, context.extensionExists (keyText e.1) = true ∧ s.Imports e.2
  invoked : ∀ e ∈ actions, s.Invokes context available (keyText e.1) e.2

/-- Whether a value may be content. -/
def Carries (v : Value) : Prop :=
  seen s.outer v = .null ∨ (∃ items, seen s.lists v = .seq items)
    ∨ ∃ entries, seen s.outer v = .map entries

end Sight

/-- A mapping is a manifest as it has to be, for the recipe with an id; it needs some recipes and
installs some extensions. -/
structure Follows (s : Sight) (context : ManifestContext) (id : String) (root : Mapping)
    (recipes install : List String) : Prop where
  keys : ∀ e ∈ root.entries, ∃ key ∈ topKeys, e.1 = .string key
  name : ∃ v, root.getName? "name" = some v ∧ s.Line (Text.isOther · = false) v
  type : ∀ v, root.getName? "type" = some v → s.Line (Text.isOther · = false) v
  description : ∀ v, root.getName? "description" = some v →
    s.Line (fun c => Text.isOther c = true → c = '\t' ∨ c = '\n' ∨ c = '\r') v
  recipe_list : s.Lists (root.getName? "recipes") recipes
  install_list : s.Lists (root.getName? "install") install
  needed : ∀ name ∈ recipes, name ≠ id ∧ context.recipeExists name = true
  installed : ∀ entry ∈ install,
    context.extensionExists (Extension.dependencyName entry) = true
  config : ∀ v, root.getName? "config" = some v → seen s.outer v = .null ∨
    ∃ entries imports actions, seen s.outer v = .map entries ∧ s.Configures context
      (context.availableExtensions (install.map Extension.dependencyName) recipes) ⟨entries⟩
      imports actions
  content : ∀ v, root.getName? "content" = some v → s.Carries v

/-- A value is a manifest as it has to be, for the recipe with an id. -/
def Conforms (s : Sight) (context : ManifestContext) (id : String) (data : Value) : Prop :=
  ∃ entries, seen s.outer data = .map entries
    ∧ ∃ recipes install, Follows s context id ⟨entries⟩ recipes install

variable {context : ManifestContext} {id path message name : String} {data v : Value}
  {root : Mapping} {l : List String} {b : Bool}

/-! ### Strings -/

/-- The rule for text, in whatever characters it may have. -/
theorem textRule_eq_nil_iff {t : String} {p : Char → Bool} {a b : List Violation} (ha : a ≠ [])
    (hb : b ≠ []) : (if t.isEmpty then a else if t.toList.any p then b else []) = []
      ↔ t ≠ "" ∧ ∀ c ∈ t.toList, p c = false := by
  have hany : (∀ c ∈ t.toList, p c = false) ↔ t.toList.any p = false := by simp
  rw [hany]
  split
  · simp_all
  · split <;> simp_all

theorem lineViolations_eq_nil_iff :
    lineViolations path message v = [] ↔ (Sight.checked b).Line (Text.isOther · = false) v := by
  simp only [Sight.Line, Sight.checked, seen]
  cases v with
  | string t =>
    have hrule : lineViolations path message (.string t) = []
        ↔ t ≠ "" ∧ ∀ c ∈ t.toList, Text.isOther c = false :=
      textRule_eq_nil_iff (List.cons_ne_nil _ _) (List.cons_ne_nil _ _)
    simp [hrule]
  | _ => simp [lineViolations]

theorem descriptionViolations_eq_nil_iff :
    descriptionViolations path v = [] ↔ (Sight.checked b).Line
      (fun c => Text.isOther c = true → c = '\t' ∨ c = '\n' ∨ c = '\r') v := by
  have hhidden : ∀ c, isHidden c = false ↔
      (Text.isOther c = true → c = '\t' ∨ c = '\n' ∨ c = '\r') := by
    intro c
    simp [isHidden]
    grind
  simp only [Sight.Line, Sight.checked, seen, ← hhidden]
  cases v with
  | string t =>
    have hrule : descriptionViolations path (.string t) = []
        ↔ t ≠ "" ∧ ∀ c ∈ t.toList, isHidden c = false :=
      textRule_eq_nil_iff (List.cons_ne_nil _ _) (List.cons_ne_nil _ _)
    simp [hrule]
  | _ => simp [descriptionViolations]

/-! ### Lists -/

theorem seen_true : seen true v = v.untagged := rfl

theorem seen_false : seen false v = v := rfl

theorem asMapping?_eq_some_iff : v.asMapping? = some root ↔ v.untagged = .map root.entries := by
  obtain ⟨entries⟩ := root
  rw [Value.asMapping?]
  split <;> simp_all

theorem untagged_ne_map (h : v.asMapping? = none) (entries : List (Value × Value)) :
    v.untagged ≠ .map entries := by
  rw [Value.asMapping?] at h
  split at h
  · cases h
  · rename_i hnot
    exact hnot entries

theorem asSequence?_eq_some_iff {items : List Value} :
    v.asSequence? = some items ↔ v.untagged = .seq items := by
  rw [Value.asSequence?]
  split <;> simp_all

theorem isNull_iff : v.isNull = true ↔ v.untagged = .null := by
  rw [Value.isNull]
  split <;> simp_all

theorem forall₂_string_iff {items : List Value} :
    List.Forall₂ (fun item t => seen (Sight.checked b).strings item = .string t ∧ t ≠ "") items l
      ↔ items = l.map .string ∧ "" ∉ l := by
  induction l generalizing items with
  | nil => simp [List.forall₂_nil_right_iff]
  | cons t l ih =>
    rw [List.forall₂_cons_right_iff, List.map_cons, List.mem_cons, not_or]
    constructor
    · rintro ⟨item, rest, ⟨hitem, ht⟩, hrest, rfl⟩
      obtain ⟨rfl, hl⟩ := ih.mp hrest
      exact ⟨congrArg (· :: _) hitem, Ne.symm ht, hl⟩
    · rintro ⟨rfl, ht, hl⟩
      exact ⟨_, _, ⟨rfl, Ne.symm ht⟩, ih.mpr ⟨rfl, hl⟩, rfl⟩

/-- A list under a key is missing, null or of strings that are not empty. -/
theorem lists_some_iff : (Sight.checked b).Lists (some v) l ↔
    v.untagged = .null ∧ l = [] ∨ v.untagged = .seq (l.map .string) ∧ "" ∉ l := by
  simp only [Sight.Lists, forall₂_string_iff]
  refine or_congr Iff.rfl ?_
  constructor
  · rintro ⟨items, hitems, rfl, hl⟩
    exact ⟨hitems, hl⟩
  · rintro ⟨hitems, hl⟩
    exact ⟨_, hitems, rfl, hl⟩

theorem itemViolation?_eq_none_iff {i : Nat} :
    itemViolation? path i v = none ↔ ∃ t, v = .string t ∧ t ≠ "" := by
  cases v <;> simp [itemViolation?]

theorem exists_strings {items : List Value} (h : ∀ item ∈ items, ∃ t, item = .string t ∧ t ≠ "") :
    ∃ l : List String, items = l.map .string ∧ "" ∉ l := by
  induction items with
  | nil => exact ⟨[], rfl, List.not_mem_nil⟩
  | cons item items ih =>
    obtain ⟨t, rfl, ht⟩ := h item List.mem_cons_self
    obtain ⟨l, rfl, hl⟩ := ih fun item hitem => h item (List.mem_cons_of_mem _ hitem)
    exact ⟨t :: l, rfl, by simp [hl, Ne.symm ht]⟩

theorem listViolations_eq_nil_iff :
    listViolations path v = [] ↔ ∃ l, (Sight.checked b).Lists (some v) l := by
  simp only [lists_some_iff]
  rw [listViolations]
  split
  · rename_i items hitems
    rw [asSequence?_eq_some_iff] at hitems
    rw [List.filterMap_eq_nil_iff, List.forall_mem_zipIdx']
    simp only [itemViolation?_eq_none_iff, hitems]
    constructor
    · intro h
      obtain ⟨l, rfl, hl⟩ := exists_strings (List.forall_mem_iff_getElem.mpr h)
      exact ⟨l, .inr ⟨rfl, hl⟩⟩
    · rintro ⟨l, h | ⟨h, hl⟩⟩ i hi
      · cases h.1
      · cases h
        refine ⟨l.get ⟨i, by simpa using hi⟩, by simp, ?_⟩
        rintro heq
        exact hl (heq ▸ List.getElem_mem _)
  · rename_i hnone
    have hseq : ∀ items, v.untagged ≠ .seq items := fun items h => by
      rw [asSequence?_eq_some_iff.mpr h] at hnone
      cases hnone
    simp [hseq, isNull_iff]

/-- A rule that takes every string that is not empty goes through all of a list of such. -/
theorem map_fst_filterMap_zipIdx {f : Value × Nat → Option (String × Nat)}
    (hf : ∀ t i, t ≠ "" → f (.string t, i) = some (t, i)) (hl : "" ∉ l) (i : Nat) :
    (((l.map Value.string).zipIdx i).filterMap f).map Prod.fst = l := by
  induction l generalizing i with
  | nil => rfl
  | cons t l ih =>
    rw [List.mem_cons, not_or] at hl
    rw [List.map_cons, List.zipIdx_cons, List.filterMap_cons, hf t i (Ne.symm hl.1)]
    simp only [List.map_cons, ih hl.2 (i + 1)]

/-- What is listed is what the rules that come after go through. -/
theorem map_fst_listedStrings (h : (Sight.checked b).Lists (some v) l) :
    (listedStrings v).map Prod.fst = l := by
  rcases lists_some_iff.mp h with ⟨hnull, rfl⟩ | ⟨hseq, hl⟩
  · rw [listedStrings, Value.asSequence?_of_isNull (isNull_iff.mpr hnull)]
    rfl
  · rw [listedStrings, asSequence?_eq_some_iff.mpr hseq]
    refine map_fst_filterMap_zipIdx (fun t i ht => ?_) hl 0
    have hempty : t.isEmpty = false := by simpa using ht
    exact if_neg (by rw [hempty]; decide)

theorem forall_listedStrings_iff {P : String → Prop} (h : (Sight.checked b).Lists (some v) l) :
    (∀ e ∈ listedStrings v, P e.1) ↔ ∀ name ∈ l, P name := by
  rw [← map_fst_listedStrings h, List.forall_mem_map]

theorem Sight.Lists.unique {ov : Option Value} {l' : List String} (h : (Sight.checked b).Lists ov l)
    (h' : (Sight.checked b).Lists ov l') : l = l' := by
  cases ov with
  | none => exact h.trans h'.symm
  | some v => rw [← map_fst_listedStrings h, ← map_fst_listedStrings h']

theorem recipeViolations_eq_nil_iff : recipeViolations context id v = [] ↔
    ∃ l, (Sight.checked b).Lists (some v) l
      ∧ ∀ name ∈ l, name ≠ id ∧ context.recipeExists name = true := by
  rw [recipeViolations, List.append_eq_nil_iff, listViolations_eq_nil_iff, ← exists_and_right]
  refine exists_congr fun l => and_congr_right fun h => ?_
  rw [← forall_listedStrings_iff h, List.filterMap_eq_nil_iff]
  refine forall₂_congr fun e _ => ?_
  dsimp only
  split
  · simp_all
  · split <;> simp_all

theorem installViolations_eq_nil_iff : installViolations context v = [] ↔
    ∃ l, (Sight.checked b).Lists (some v) l
      ∧ ∀ entry ∈ l, context.extensionExists (Extension.dependencyName entry) = true := by
  rw [installViolations, List.append_eq_nil_iff, listViolations_eq_nil_iff, ← exists_and_right]
  refine exists_congr fun l => and_congr_right fun h => ?_
  rw [← forall_listedStrings_iff h, List.filterMap_eq_nil_iff]
  refine forall₂_congr fun e _ => ?_
  dsimp only
  split <;> simp_all

/-! ### Configuration -/

theorem keyViolations_eq_nil_iff {known : List String} (hwords : areWords known = true) :
    keyViolations path known root = [] ↔ ∀ e ∈ root.entries, ∃ key ∈ known, e.1 = .string key := by
  rw [keyViolations, List.filterMap_eq_nil_iff, Mapping.keys, List.map_map, List.forall_mem_map]
  refine forall₂_congr fun e _ => ?_
  rw [ite_eq_left_iff]
  constructor
  · intro h
    have hknown : keyText e.1 ∈ known := by simpa using h
    exact ⟨_, hknown, eq_string_of_keyText hwords hknown⟩
  · rintro ⟨key, hkey, he⟩
    simp [he, keyText, hkey]

theorem isQualified_iff : isQualified name = true ↔ Sight.Qualified name := by
  rw [isQualified, Sight.Qualified]
  constructor
  · intro h
    split at h
    · cases h
    · rename_i c rest hline
      obtain ⟨before, after, rfl⟩ := List.append_of_mem (List.contains_iff_mem.mp h)
      refine ⟨c :: before, after ++ name.toList.dropWhile (· != '\n'), ?_, by simp, ?_⟩
      · refine (List.takeWhile_append_dropWhile (p := (· != '\n'))).symm.trans ?_
        rw [hline]
        simp
      · intro hbreak
        have hmem : '\n' ∈ name.toList.takeWhile (· != '\n') := by
          rw [hline]
          exact List.mem_append_left ('.' :: after) hbreak
        simpa using List.all_eq_true.mp List.all_takeWhile _ hmem
  · rintro ⟨before, after, hname, hne, hbreak⟩
    have hline : ∀ c ∈ before, (c != '\n') = true := fun c hc => by
      rw [bne_iff_ne]
      rintro rfl
      exact hbreak hc
    rw [hname, List.takeWhile_append_of_pos hline]
    obtain ⟨c, rest, rfl⟩ := List.exists_cons_of_ne_nil hne
    simp

/-- The items of the lists of what is imported are not tagged. -/
def ArePlain (imports : List (Value × Value)) : Prop :=
  ∀ e ∈ imports, ∀ items, e.2 = .seq items → ∀ item ∈ items, item.untagged = item

theorem isImport_iff
    (h : b = true ∨ ∀ items, v = .seq items → ∀ item ∈ items, item.untagged = item) :
    isImport v = true ↔ (Sight.checked b).Imports v := by
  have hseen : ∀ items, v = .seq items → ∀ item ∈ items, item.untagged = seen b item := by
    intro items hv item hitem
    rcases h with rfl | h
    · rfl
    · rw [seen, h items hv item hitem, ite_self]
  have hname : ∀ item : Value, item.asString?.any isQualified = true
      ↔ ∃ t, item.untagged = .string t ∧ Sight.Qualified t := by
    intro item
    rw [Value.asString?]
    cases item.untagged <;> simp [isQualified_iff]
  simp only [Sight.Imports, Sight.checked, seen_false]
  cases v with
  | string t => simp [isImport]
  | seq items =>
    simp only [isImport, List.all_eq_true, hname]
    constructor
    · exact fun hall => .inr ⟨items, rfl, fun item hi => hseen _ rfl _ hi ▸ hall _ hi⟩
    · rintro (hall | ⟨_, heq, hall⟩) item hi
      · cases hall
      · cases heq
        exact hseen _ rfl _ hi ▸ hall _ hi
  | _ => simp [isImport]

theorem importViolations_eq_nil_iff {entries : List (Value × Value)}
    (h : b = true ∨ ArePlain entries) : importViolations context entries = [] ↔ ∀ e ∈ entries,
      context.extensionExists (keyText e.1) = true ∧ (Sight.checked b).Imports e.2 := by
  rw [importViolations, List.flatMap_eq_nil_iff]
  refine forall₂_congr fun e he => ?_
  rw [← isImport_iff (h.imp_right fun h => h e he)]
  simp

theorem head?_splitPieces (sep : Char) (cs : List Char) :
    (Text.splitPieces sep cs).head? = some (cs.takeWhile (· ≠ sep)) := by
  induction cs with
  | nil => rfl
  | cons c cs ih =>
    rw [Text.splitPieces]
    split
    · rename_i h
      simp [h]
    · rename_i h
      cases hs : Text.splitPieces sep cs with
      | nil => exact absurd hs (Text.splitPieces_ne_nil sep cs)
      | cons piece pieces =>
        rw [hs] at ih
        simp_all

/-- The part of an expression before its first dot. -/
theorem head?_split_dot (expression : String) : ((Text.split '.' expression).head?).getD ""
    = String.ofList (expression.toList.takeWhile (· ≠ '.')) := by
  rw [Text.split, List.head?_map, head?_splitPieces]
  rfl

theorem actionViolations_eq_nil_iff {available : List String} {expression : String} :
    actionViolations context available expression v = []
      ↔ (Sight.checked b).Invokes context available expression v := by
  rw [Sight.Invokes, Sight.checked, seen_true, actionViolations]
  dsimp only
  split
  · rename_i hnone
    simp [untagged_ne_map hnone]
  · rename_i m hm
    obtain ⟨entries⟩ := m
    rw [asMapping?_eq_some_iff] at hm
    rw [hm, head?_split_dot]
    generalize String.ofList (expression.toList.takeWhile (· ≠ '.')) = provider
    by_cases hempty : entries = []
    · simp [hempty, Mapping.isEmpty]
    · simp [hempty, Mapping.isEmpty, Mapping.keys, or_iff_not_imp_left]

/-- The entries under a key are those of an untagged mapping, none if there is nothing else. -/
theorem section_iff {ov : Option Value} {es : List (Value × Value)} :
    (Sight.checked b).Section ov es ↔
      (ov = none ∨ ov = some .null) ∧ es = [] ∨ ov = some (.map es) := by
  cases ov <;> simp [Sight.Section, Sight.checked, seen_false]

theorem sectionViolations_eq_nil_iff {ov : Option Value}
    {rules : List (Value × Value) → List Violation} (hrules : rules [] = []) :
    sectionViolations path rules ov = []
      ↔ ∃ es, (Sight.checked b).Section ov es ∧ rules es = [] := by
  simp only [section_iff]
  rw [sectionViolations.eq_def]
  split
  · simp [hrules]
  · simp [hrules]
  · simp
  · rename_i v hnull hmap
    have hnull : v ≠ .null := fun h => hnull (h ▸ rfl)
    have hmap : ∀ es, v ≠ .map es := fun es h => hmap es (h ▸ rfl)
    simp [hnull, hmap]

theorem configViolations_eq_nil_iff {install recipes : List String}
    (h : ∀ entries imports, v.untagged = .map entries →
      (Sight.checked b).Section ((Mapping.mk entries).getName? "import") imports →
        b = true ∨ ArePlain imports) :
    configViolations context install recipes v = [] ↔ v.untagged = .null ∨
      ∃ entries imports actions, v.untagged = .map entries ∧ (Sight.checked b).Configures context
        (context.availableExtensions install recipes) ⟨entries⟩ imports actions := by
  rw [configViolations, ← isNull_iff]
  split
  · rename_i hnull
    simp [hnull]
  · rename_i hnull
    rw [or_iff_right hnull]
    split
    · rename_i hnone
      simp [untagged_ne_map hnone]
    · rename_i m hm
      obtain ⟨entries⟩ := m
      rw [asMapping?_eq_some_iff] at hm
      dsimp only
      rw [List.append_eq_nil_iff, List.append_eq_nil_iff, keyViolations_eq_nil_iff (by decide),
        sectionViolations_eq_nil_iff rfl, sectionViolations_eq_nil_iff rfl]
      constructor
      · rintro ⟨⟨hkeys, imports, himports, hrules⟩, actions, hactions, hinvoked⟩
        refine ⟨entries, imports, actions, hm, hkeys, himports, hactions, ?_, fun e he => ?_⟩
        · exact (importViolations_eq_nil_iff (h _ _ hm himports)).mp hrules
        · exact actionViolations_eq_nil_iff.mp (List.flatMap_eq_nil_iff.mp hinvoked e he)
      · rintro ⟨entries', imports, actions, heq, hkeys, himports, hactions, hrules, hinvoked⟩
        obtain rfl : entries = entries' := by simpa [hm] using heq
        refine ⟨⟨hkeys, imports, himports, ?_⟩, actions, hactions, ?_⟩
        · exact (importViolations_eq_nil_iff (h _ _ hm himports)).mpr hrules
        · exact List.flatMap_eq_nil_iff.mpr fun e he =>
            actionViolations_eq_nil_iff.mpr (hinvoked e he)

theorem contentViolations_eq_nil_iff :
    contentViolations v = [] ↔ (Sight.checked b).Carries v := by
  have hseq : v.isSequence = true ↔ ∃ items, v.untagged = .seq items := by
    simp [Value.isSequence, Option.isSome_iff_exists, asSequence?_eq_some_iff]
  have hmap : v.isMapping = true ↔ ∃ entries, v.untagged = .map entries := by
    rw [Value.isMapping, Option.isSome_iff_exists]
    simp only [asMapping?_eq_some_iff]
    constructor
    · rintro ⟨m, hm⟩
      exact ⟨m.entries, hm⟩
    · rintro ⟨entries, h⟩
      exact ⟨⟨entries⟩, h⟩
  rw [contentViolations, Sight.Carries, Sight.checked, seen_true, ← isNull_iff, ← hseq, ← hmap,
    ← or_assoc, ← Bool.or_eq_true, ← Bool.or_eq_true]
  split <;> simp_all

/-! ### The whole manifest -/

/-- The entries under a key of the configuration. -/
def sectionEntries (data : Value) (key : String) : List (Value × Value) :=
  match (((data.asMapping?).bind (·.getName? "config")).bind (·.asMapping?)).bind
      (·.getName? key) with
  | some (.map entries) => entries
  | _ => []

theorem sectionEntries_eq {entries es : List (Value × Value)} {config : Mapping} {key : String}
    (hdata : data.untagged = .map entries)
    (hconfig : (Mapping.mk entries).getName? "config" = some v) (hv : v.asMapping? = some config)
    (h : (Sight.checked b).Section (config.getName? key) es) : sectionEntries data key = es := by
  have hroot : data.asMapping? = some ⟨entries⟩ := asMapping?_eq_some_iff.mpr hdata
  rw [sectionEntries, hroot, Option.bind_some, hconfig, Option.bind_some, hv, Option.bind_some]
  rcases section_iff.mp h with ⟨hnone | hnull, rfl⟩ | hmap
  · rw [hnone]
  · rw [hnull]
  · rw [hmap]

/-- A rule for a key is kept if it is kept by what stands under the key. -/
theorem elim_eq_nil_iff {ov : Option Value} {f : Value → List Violation} :
    ov.elim [] f = [] ↔ ∀ v, ov = some v → f v = [] := by
  cases ov <;> simp

theorem recipesRule_eq_nil_iff {ov : Option Value} :
    ov.elim [] (recipeViolations context id) = [] ↔ ∃ l, (Sight.checked b).Lists ov l
      ∧ ∀ name ∈ l, name ≠ id ∧ context.recipeExists name = true := by
  cases ov with
  | none => simp [Sight.Lists]
  | some v => exact recipeViolations_eq_nil_iff

theorem installRule_eq_nil_iff {ov : Option Value} :
    ov.elim [] (installViolations context) = [] ↔ ∃ l, (Sight.checked b).Lists ov l
      ∧ ∀ entry ∈ l, context.extensionExists (Extension.dependencyName entry) = true := by
  cases ov with
  | none => simp [Sight.Lists]
  | some v => exact installViolations_eq_nil_iff

theorem nameRule_eq_nil_iff {ov : Option Value} :
    ov.elim [⟨"[name]", missing⟩] (lineViolations "[name]" message) = []
      ↔ ∃ v, ov = some v ∧ (Sight.checked b).Line (Text.isOther · = false) v := by
  cases ov with
  | none => simp
  | some v => simp [lineViolations_eq_nil_iff (b := b)]

/-- The strings that the rules for the configuration go by. -/
theorem elim_listedStrings {ov : Option Value} (h : (Sight.checked b).Lists ov l) :
    ov.elim [] (fun v => (listedStrings v).map Prod.fst) = l := by
  cases ov with
  | none => exact h.symm
  | some v => exact map_fst_listedStrings h

theorem violations_eq_nil_iff_conforms (h : b = true ∨ ArePlain (sectionEntries data "import")) :
    violations context id data = [] ↔ Conforms (.checked b) context id data := by
  rw [Conforms, Sight.checked, seen_true, violations]
  split
  · rename_i hnone
    simp [untagged_ne_map hnone]
  · rename_i root hroot
    obtain ⟨entries⟩ := root
    rw [asMapping?_eq_some_iff] at hroot
    have hconfig : ∀ v, (Mapping.mk entries).getName? "config" = some v → ∀ recipes install,
        configViolations context install recipes v = [] ↔ v.untagged = .null ∨
          ∃ entries imports actions, v.untagged = .map entries
            ∧ (Sight.checked b).Configures context (context.availableExtensions install recipes)
              ⟨entries⟩ imports actions := by
      intro v hv recipes install
      refine configViolations_eq_nil_iff fun config imports hmap himports => ?_
      rwa [← sectionEntries_eq hroot hv (asMapping?_eq_some_iff.mpr hmap) himports]
    simp only [List.append_eq_nil_iff,
      keyViolations_eq_nil_iff (show areWords topKeys = true by decide),
      nameRule_eq_nil_iff (b := b), elim_eq_nil_iff (f := descriptionViolations _),
      elim_eq_nil_iff (f := lineViolations _ _), recipesRule_eq_nil_iff (b := b),
      installRule_eq_nil_iff (b := b), elim_eq_nil_iff (f := configViolations _ _ _),
      elim_eq_nil_iff (f := contentViolations), descriptionViolations_eq_nil_iff (b := b),
      lineViolations_eq_nil_iff (b := b), contentViolations_eq_nil_iff (b := b), hroot]
    constructor
    · rintro ⟨⟨⟨⟨⟨⟨⟨hkeys, hname⟩, hdescription⟩, htype⟩, recipes, hrecipes, hneeded⟩, install,
        hinstall, hinstalled⟩, hrules⟩, hcontent⟩
      rw [elim_listedStrings hrecipes, elim_listedStrings hinstall] at hrules
      exact ⟨entries, rfl, recipes, install, hkeys, hname, htype, hdescription, hrecipes, hinstall,
        hneeded, hinstalled, fun v hv => (hconfig v hv _ _).mp (hrules v hv), hcontent⟩
    · rintro ⟨_, heq, recipes, install, h⟩
      cases heq
      refine ⟨⟨⟨⟨⟨⟨⟨h.keys, h.name⟩, h.description⟩, h.type⟩, recipes, h.recipe_list, h.needed⟩,
        install, h.install_list, h.installed⟩, fun v hv => ?_⟩, h.content⟩
      rw [elim_listedStrings h.recipe_list, elim_listedStrings h.install_list]
      exact (hconfig v hv _ _).mpr (h.config v hv)

section Available

variable {available : List String → List String → List String}
  (hmore : ∀ install recipes, context.availableExtensions install recipes ⊆
    available install recipes)
include hmore

/-- Extensions that are there besides break no rule. -/
theorem Conforms.of_available {s : Sight} (h : Conforms s context id data) :
    Conforms s { context with availableExtensions := available } id data := by
  obtain ⟨entries, hdata, recipes, install, hfollows⟩ := h
  refine ⟨entries, hdata, recipes, install, { hfollows with config := fun v hv => ?_ }⟩
  refine (hfollows.config v hv).imp_right ?_
  rintro ⟨config, imports, actions, hmap, hconfigures⟩
  refine ⟨config, imports, actions, hmap, { hconfigures with invoked := fun e he => ?_ }⟩
  obtain ⟨ids, hids, hne, hprovider, hexists⟩ := hconfigures.invoked e he
  exact ⟨ids, hids, hne, hprovider.imp_right fun hmem => hmore _ _ hmem, hexists⟩

theorem parse_of_available {fs : Files} {file : Path} {m : Manifest}
    (h : parse fs context file id = .ok m) :
    parse fs { context with availableExtensions := available } file id = .ok m := by
  obtain ⟨data, hdata, h⟩ := Except.bind_eq_ok_iff.mp h
  have hnone : violations context id data = [] := by
    by_contra hne
    have hbroken : (!(violations context id data).isEmpty) = true := by simpa using hne
    simp only [hbroken, if_true] at h
    cases h
  have hnone' : violations { context with availableExtensions := available } id data = [] :=
    (violations_eq_nil_iff_conforms (b := true) (.inl rfl)).mpr
      (((violations_eq_nil_iff_conforms (.inl rfl)).mp hnone).of_available hmore)
  refine Except.bind_eq_ok_iff.mpr ⟨data, hdata, ?_⟩
  rw [hnone] at h
  rw [hnone']
  exact h

end Available

/-- **The rules for manifests as one property.** No rule is broken exactly if the value is a
manifest as it has to be. -/
theorem violations_eq_nil_iff (hplain : ArePlain (sectionEntries data "import")) :
    violations context id data = [] ↔ Conforms (.checked false) context id data :=
  violations_eq_nil_iff_conforms (.inr hplain)

/-- What there is besides the recipe of a few notes. -/
def notesContext : ManifestContext where
  recipeExists name := name == "base"
  extensionExists name := name == "node"
  availableExtensions install _ := install
  actionExists id _ := id == "simple_config_update"

/-- The manifest of a recipe for notes. -/
def notesManifest : Value := .map [
  (.string "name", .string "Notes"),
  (.string "recipes", .seq [.string "base"]),
  (.string "install", .tagged "list" (.seq [.string "node"])),
  (.string "config", .map [
    (.string "import", .map [(.string "node", .seq [.string "node.settings"])]),
    (.string "actions", .map [(.string "node.settings",
      .map [(.string "simple_config_update", .map [(.string "use_admin_theme", .bool true)])])])])]

theorem conforms_notesManifest : ArePlain (sectionEntries notesManifest "import")
    ∧ Conforms (.checked false) notesContext "notes" notesManifest := by
  have hplain : ArePlain (sectionEntries notesManifest "import") := by
    intro e he items hitems item hitem
    obtain rfl : e = (.string "node", .seq [.string "node.settings"]) := List.mem_singleton.mp he
    cases hitems
    obtain rfl := List.mem_singleton.mp hitem
    rfl
  exact ⟨hplain, (violations_eq_nil_iff hplain).mp (by decide +kernel)⟩

/-- A manifest with a tag. -/
def taggedManifest : Value := .tagged "root" (.map [(.string "name", .string "Notes")])

/-- A manifest in which the imports have a tag. -/
def taggedImports : Value := .map [
  (.string "name", .string "Notes"),
  (.string "config", .map [(.string "import", .tagged "none" (.map []))])]

/-- The rules treat mappings with tags neither as mappings nor as something else throughout. -/
theorem no_uniform_sight :
    (∀ sequences strings, ¬ (violations notesContext "notes" taggedManifest = []
      ↔ Conforms (.uniform false sequences strings) notesContext "notes" taggedManifest))
    ∧ ∀ sequences strings, ¬ (violations notesContext "notes" taggedImports = []
      ↔ Conforms (.uniform true sequences strings) notesContext "notes" taggedImports) := by
  constructor
  · intro sequences strings h
    obtain ⟨entries, heq, -⟩ := h.mp (by decide +kernel)
    cases heq
  · intro sequences strings h
    have hbroken : violations notesContext "notes" taggedImports ≠ [] := by decide +kernel
    refine hbroken (h.mpr ⟨_, rfl, [], [], ?_⟩)
    have hallowed : "Notes".toList.all (!Text.isOther ·) = true := by decide +kernel
    have hname : (Sight.uniform true sequences strings).Line (Text.isOther · = false)
        (.string "Notes") :=
      ⟨"Notes", by cases strings <;> rfl, by decide, by simpa using hallowed⟩
    refine ⟨?_, ⟨_, rfl, hname⟩, nofun, nofun, rfl, rfl, nofun, nofun, ?_, nofun⟩
    · simp [topKeys]
    · rintro v ⟨⟩
      refine .inr ⟨_, [], [], rfl, ?_, .inr rfl, rfl, nofun, nofun⟩
      simp [configKeys]

end Manifest

end Cookbook
