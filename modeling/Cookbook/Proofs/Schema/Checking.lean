import Cookbook.Proofs.Action.Arguments
import Cookbook.Proofs.NameMap
import Cookbook.Proofs.Regex.Matching
import Cookbook.Proofs.Schema.Choosing

/-!
# What checking an object finds

An object is checked in two passes: over the keys of its schema, and over its own keys. What the
schema asks for is stated here without the passes. `FieldSchema.Accepts` says which values a key may
have, by the type, the blankness, the pattern and the choices that are declared for it;
`Schema.Conforms` says that each key of the schema is filled in and that no key is foreign.

Checking finds nothing in exactly the objects that conform. Otherwise what it finds is a list of
texts, and `Blames` says that it goes through the keys in order: a key that offends gets at least
one text, which starts with the key, and a key that does not gets none.

The checks match on the constructors in some places and see through tags in others. So values with
tags are left out, as are patterns that cannot be read: with these there is no answer at all. What a
pattern is and where it is found is up to the engine, and the results hold of any.

## Main definitions

* `FieldSchema.IsOf`, `FieldSchema.Blank`, `FieldSchema.Gives`: the types and the constraints.
* `FieldSchema.Finds`, `FieldSchema.Compiles`: what an engine makes of the patterns.
* `FieldSchema.Accepts`: the values that a key may have.
* `Schema.Fills`, `Schema.Allows`, `Schema.Conforms`: what a schema asks for.
* `Blames`: texts that go through keys in order.

## Main results

* `FieldSchema.finds_own_iff`: the engine of the library finds a pattern where it has a match.
* `FieldSchema.exists_violations`: nothing is found in exactly the values that are accepted.
* `Schemas.blames_of_violations`: nothing is found in exactly the objects that conform, and
  otherwise the keys that offend are named, those of the schema first.
-/

namespace Cookbook

/-! ### Texts about keys -/

/-- A text says something of a key. -/
def SaysOf (label text : String) : Prop := ∃ message, text = label ++ ": " ++ message

section SaysOf

variable {label text more : String}

theorem saysOf_append (message : String) (h : ": " ++ message = text) :
    SaysOf label (label ++ text) := ⟨message, by rw [← h, String.append_assoc]⟩

theorem SaysOf.append (h : SaysOf label text) (more : String) : SaysOf label (text ++ more) := by
  obtain ⟨message, rfl⟩ := h
  exact ⟨message ++ more, String.append_assoc ..⟩

/-- A text that is left out if something holds. -/
theorem saysOf_of_mem_ite {b : Bool} (h : SaysOf label text) :
    ∀ t ∈ if b then [] else [text], SaysOf label t := by
  split
  · exact List.forall_mem_nil _
  · exact List.forall_mem_singleton.mpr h

end SaysOf

/-- Texts go through keys in order: each key that offends gets texts, and no other key does. -/
inductive Blames {α : Type} (offends : α → Prop) (label : α → String) :
    List α → List String → Prop
  | nil : Blames offends label [] []
  | pass {k : α} {ks : List α} {texts : List String} (hk : ¬offends k)
    (hks : Blames offends label ks texts) : Blames offends label (k :: ks) texts
  | blame {k : α} {ks : List α} {here texts : List String} (hk : offends k) (hne : here ≠ [])
    (hhere : ∀ t ∈ here, SaysOf (label k) t) (hks : Blames offends label ks texts) :
    Blames offends label (k :: ks) (here ++ texts)

namespace Blames

variable {α β : Type} {offends : α → Prop} {label : α → String} {ks : List α}
  {texts : List String}

theorem eq_nil_iff (h : Blames offends label ks texts) : texts = [] ↔ ∀ k ∈ ks, ¬offends k := by
  induction h with
  | nil => simp
  | pass hk _ ih => simp [ih, hk]
  | blame hk hne => simp [hk, hne]

/-- Texts that are found for each key on its own. -/
theorem flatMap {g : α → List String} (h : ∀ k ∈ ks, (g k = [] ↔ ¬offends k) ∧
    ∀ t ∈ g k, SaysOf (label k) t) : Blames offends label ks (ks.flatMap g) := by
  induction ks with
  | nil => exact .nil
  | cons k ks ih =>
    rw [List.forall_mem_cons] at h
    rw [List.flatMap_cons]
    by_cases hk : offends k
    · exact .blame hk (fun hnil => h.1.1.mp hnil hk) h.1.2 (ih h.2)
    · rw [h.1.1.mpr hk]
      exact .pass hk (ih h.2)

/-- Keys that are given by something that has them. -/
theorem map {g : β → α} {ls : List β}
    (h : Blames (fun l => offends (g l)) (fun l => label (g l)) ls texts) :
    Blames offends label (ls.map g) texts := by
  induction h with
  | nil => exact .nil
  | pass hk _ ih => exact .pass hk ih
  | blame hk hne hhere _ ih => exact .blame hk hne hhere ih

end Blames

/-! ### Starts and ends of texts -/

namespace Text

theorem stripStart?_eq_some_iff {p s rest : String} :
    stripStart? p s = some rest ↔ s = p ++ rest := by
  rw [stripStart?, Option.map_eq_some_iff]
  constructor
  · rintro ⟨cs, hcs, rfl⟩
    rw [dropStart?_eq_some_iff] at hcs
    exact String.toList_inj.mp (by rw [hcs, String.toList_append, String.toList_ofList])
  · rintro rfl
    exact ⟨rest.toList, dropStart?_eq_some_iff.mpr String.toList_append, String.ofList_toList⟩

theorem stripEnd?_eq_some_iff {p s rest : String} :
    stripEnd? p s = some rest ↔ s = rest ++ p := by
  rw [stripEnd?, Option.map_eq_some_iff]
  constructor
  · rintro ⟨cs, hcs, rfl⟩
    rw [dropStart?_eq_some_iff, ← List.reverse_inj, List.reverse_reverse] at hcs
    exact String.toList_inj.mp (by simp [hcs])
  · rintro rfl
    exact ⟨rest.toList.reverse, dropStart?_eq_some_iff.mpr (by simp), by simp⟩

end Text

/-! ### Values and mappings without tags -/

namespace Value

variable {v : Value}

theorem isNull_iff (h : v.hasNoTags = true) : v.isNull = true ↔ v = .null := by
  rw [isNull, untagged_of_hasNoTags h]
  cases v <;> simp

theorem isBool_iff (h : v.hasNoTags = true) : v.isBool = true ↔ ∃ b, v = .bool b := by
  rw [isBool, untagged_of_hasNoTags h]
  cases v <;> simp

theorem isInteger_iff (h : v.hasNoTags = true) : v.isInteger = true ↔ ∃ n, v = .int n := by
  rw [isInteger, untagged_of_hasNoTags h]
  cases v <;> simp

theorem isNumber_iff (h : v.hasNoTags = true) :
    v.isNumber = true ↔ (∃ n, v = .int n) ∨ ∃ x, v = .float x := by
  rw [isNumber, untagged_of_hasNoTags h]
  cases v <;> simp

theorem isString_iff (h : v.hasNoTags = true) : v.isString = true ↔ ∃ s, v = .string s := by
  rw [isString, Option.isSome_iff_exists]
  simp only [asString?_iff h]

theorem asSequence?_iff (h : v.hasNoTags = true) {items : List Value} :
    v.asSequence? = some items ↔ v = .seq items := by
  rw [asSequence?, untagged_of_hasNoTags h]
  cases v <;> simp

theorem isSequence_iff (h : v.hasNoTags = true) :
    v.isSequence = true ↔ ∃ items, v = .seq items := by
  rw [isSequence, Option.isSome_iff_exists]
  simp only [asSequence?_iff h]

theorem isMapping_iff (h : v.hasNoTags = true) : v.isMapping = true ↔ ∃ es, v = .map es := by
  rw [isMapping, asMapping?, untagged_of_hasNoTags h]
  cases v <;> simp

end Value

namespace Mapping

/-- There is no tag in the entries. -/
def hasNoTags (m : Mapping) : Bool := Value.haveEntriesNoTags m.entries

variable {m : Mapping} {name : String} {v : Value}

theorem hasNoTags_of_getName? (hm : m.hasNoTags = true) (h : m.getName? name = some v) :
    v.hasNoTags = true :=
  (Value.haveEntriesNoTags_iff.mp hm _ (mem_of_getName? h)).2

theorem hasNoTags_of_mem_keys (hm : m.hasNoTags = true) {k : Value} (h : k ∈ m.keys) :
    k.hasNoTags = true := by
  obtain ⟨e, he, rfl⟩ := List.mem_map.mp h
  exact (Value.haveEntriesNoTags_iff.mp hm e he).1

end Mapping

namespace FieldSchema

variable {engine : RegexEngine} {f : FieldSchema} {v rule : Value}
  {type pattern inner text key : String}

/-! ### Types -/

/-- A value is of a type. A type without a rule of its own has every value. -/
inductive IsOf : String → Value → Prop
  | string {type : String} (h : type ∈ ["string", "label", "text"]) (s : String) :
    IsOf type (.string s)
  | boolean (b : Bool) : IsOf "boolean" (.bool b)
  | integer (n : Int) : IsOf "integer" (.int n)
  | whole (n : Int) : IsOf "float" (.int n)
  | float (x : Binary64) : IsOf "float" (.float x)
  | mapping (entries : List (Value × Value)) : IsOf "mapping" (.map entries)
  | sequence (items : List Value) : IsOf "sequence" (.seq items)
  | free {type : String} (h : type ∉ ["string", "label", "text", "boolean", "integer", "float",
    "mapping", "sequence"]) (v : Value) : IsOf type v

theorem hasType_iff (hv : v.hasNoTags = true) : hasType type v = true ↔ IsOf type v := by
  constructor
  · intro h
    unfold hasType at h
    split at h
    case h_1 | h_2 | h_3 =>
      obtain ⟨s, rfl⟩ := (Value.isString_iff hv).mp h
      exact .string (by simp) s
    case h_4 =>
      obtain ⟨b, rfl⟩ := (Value.isBool_iff hv).mp h
      exact .boolean b
    case h_5 =>
      obtain ⟨n, rfl⟩ := (Value.isInteger_iff hv).mp h
      exact .integer n
    case h_6 =>
      obtain ⟨n, rfl⟩ | ⟨x, rfl⟩ := (Value.isNumber_iff hv).mp h
      · exact .whole n
      · exact .float x
    case h_7 =>
      obtain ⟨entries, rfl⟩ := (Value.isMapping_iff hv).mp h
      exact .mapping entries
    case h_8 =>
      obtain ⟨items, rfl⟩ := (Value.isSequence_iff hv).mp h
      exact .sequence items
    case h_9 => exact .free (by simp_all) v
  · intro h
    cases h with
    | free h =>
      unfold hasType
      split <;> simp_all
    | string h s =>
      simp only [List.mem_cons, List.not_mem_nil, or_false] at h
      rcases h with rfl | rfl | rfl <;> rfl
    | _ => rfl

/-! ### Constraints -/

/-- There is nothing in a value. -/
inductive Blank : Value → Prop
  | string {s : String} (h : ∀ c ∈ s.toList, Text.isWhite c = true) : Blank (.string s)
  | seq : Blank (.seq [])
  | map : Blank (.map [])

theorem isBlank_iff : isBlank v = true ↔ Blank v := by
  constructor
  · intro h
    cases v with
    | string s => exact .string (List.all_eq_true.mp h)
    | seq items =>
      cases List.isEmpty_iff.mp h
      exact .seq
    | map entries =>
      cases List.isEmpty_iff.mp h
      exact .map
    | _ => cases h
  · intro h
    cases h with
    | string h => exact List.all_eq_true.mpr h
    | _ => rfl

/-- What a constraint gives is written as such, or under a name in a mapping. -/
inductive Gives (name : String) : Value → Value → Prop
  | plain (v : Value) : Gives name v v
  | named {entries : List (Value × Value)} {v : Value}
    (h : (Mapping.mk entries).getName? name = some v) : Gives name (.map entries) v

theorem pattern?_eq_some_iff (hrule : rule.hasNoTags = true) :
    pattern? rule = some pattern ↔ Gives "pattern" rule (.string pattern) := by
  constructor
  · intro h
    cases rule with
    | string s =>
      cases h
      exact .plain _
    | map entries =>
      obtain ⟨v, hname, h⟩ := Option.bind_eq_some_iff.mp h
      have hv : v.hasNoTags = true :=
        Mapping.hasNoTags_of_getName? (m := ⟨entries⟩) hrule hname
      exact .named (((Value.asString?_iff hv).mp h) ▸ hname)
    | _ => cases h
  · intro h
    cases h with
    | plain => rfl
    | named h => exact Option.bind_eq_some_iff.mpr ⟨_, h, rfl⟩

theorem choices?_eq_some_iff (hrule : rule.hasNoTags = true) {choices : List Value} :
    choices? rule = some choices ↔ Gives "choices" rule (.seq choices) := by
  constructor
  · intro h
    cases rule with
    | seq items =>
      cases h
      exact .plain _
    | map entries =>
      obtain ⟨v, hname, h⟩ := Option.bind_eq_some_iff.mp h
      have hv : v.hasNoTags = true :=
        Mapping.hasNoTags_of_getName? (m := ⟨entries⟩) hrule hname
      exact .named (((Value.asSequence?_iff hv).mp h) ▸ hname)
    | _ => cases h
  · intro h
    cases h with
    | plain => rfl
    | named h => exact Option.bind_eq_some_iff.mpr ⟨_, h, rfl⟩

/-- A pattern without the slashes around it, if it has both. -/
inductive Delimits : String → String → Prop
  | slashes (inner : String) : Delimits ("/" ++ inner ++ "/") inner
  | bare {pattern : String} (h : ∀ inner, pattern ≠ "/" ++ inner ++ "/") : Delimits pattern pattern

theorem delimits_iff : Delimits pattern inner ↔ stripDelimiters pattern = inner := by
  have hboth : ∀ inner, (Text.stripStart? "/" pattern).bind (Text.stripEnd? "/") = some inner ↔
      pattern = "/" ++ inner ++ "/" := by
    intro inner
    simp only [Option.bind_eq_some_iff, Text.stripStart?_eq_some_iff, Text.stripEnd?_eq_some_iff,
      exists_eq_right, String.append_assoc]
  rw [stripDelimiters]
  cases h : (Text.stripStart? "/" pattern).bind (Text.stripEnd? "/") with
  | none =>
    have hbare : ∀ inner, pattern ≠ "/" ++ inner ++ "/" := by
      intro inner heq
      rw [(hboth inner).mpr heq] at h
      cases h
    constructor
    · intro hdelimits
      cases hdelimits with
      | slashes => exact absurd rfl (hbare inner)
      | bare => rfl
    · rintro rfl
      exact .bare hbare
  | some found =>
    have heq := (hboth found).mp h
    constructor
    · intro hdelimits
      cases hdelimits with
      | slashes =>
        rw [(hboth inner).mpr rfl] at h
        exact (Option.some.inj h).symm
      | bare hbare => exact absurd heq (hbare found)
    · rintro rfl
      exact heq ▸ .slashes found

/-- A pattern is found in a text. -/
def Finds (engine : RegexEngine) (pattern text : String) : Prop :=
  ∃ inner finds, Delimits pattern inner ∧ engine.compile inner = .ok finds ∧ finds text = true

/-- The engine of the library finds a pattern in a text if the text has a match of it. -/
theorem finds_own_iff : Finds .own pattern text ↔ ∃ inner r p q, Delimits pattern inner ∧
    Regex.parse? inner = some r ∧ Regex.Place.Leads ⟨none, text.toList⟩ p ∧ r.Matches p q := by
  have hcompile : ∀ inner finds, RegexEngine.own.compile inner = .ok finds ↔
      ∃ r, Regex.parse? inner = some r ∧ r.occursIn = finds := by
    intro inner finds
    dsimp only [RegexEngine.own]
    cases Regex.parse? inner <;> simp
  simp only [Finds, hcompile]
  constructor
  · rintro ⟨inner, finds, hinner, ⟨r, hr, rfl⟩, hfinds⟩
    obtain ⟨p, q, hlead, hmatch⟩ := (Regex.occursIn_iff ..).mp hfinds
    exact ⟨inner, r, p, q, hinner, hr, hlead, hmatch⟩
  · rintro ⟨inner, r, p, q, hinner, hr, hlead, hmatch⟩
    exact ⟨inner, _, hinner, ⟨r, hr, rfl⟩, (Regex.occursIn_iff ..).mpr ⟨p, q, hlead, hmatch⟩⟩

/-- A key is declared to have values that fit a pattern. -/
def AsksFor (f : FieldSchema) (pattern : String) : Prop :=
  ∃ rule, f.constraints.getName? "Regex" = some rule ∧ Gives "pattern" rule (.string pattern)

/-- A key is declared to have one of some values. -/
def Offers (f : FieldSchema) (choices : List Value) : Prop :=
  ∃ rule, f.constraints.getName? "Choice" = some rule ∧ Gives "choices" rule (.seq choices)

/-- The pattern that is asked for can be read. -/
def Compiles (engine : RegexEngine) (f : FieldSchema) : Prop :=
  ∀ pattern inner, f.AsksFor pattern → Delimits pattern inner →
    ∃ finds, engine.compile inner = .ok finds

/-- A value satisfies the constraints. -/
structure Meets (engine : RegexEngine) (f : FieldSchema) (v : Value) : Prop where
  /-- It is not blank if it must not be. -/
  notBlank : f.constraints.containsName "NotBlank" = true → ¬Blank v
  /-- If it is a string, the pattern is found in it. -/
  regex : ∀ pattern text, f.AsksFor pattern → v = .string text → Finds engine pattern text
  /-- It is one of the choices. -/
  choice : ∀ choices, f.Offers choices → ∃ c ∈ choices, c.same v = true

/-- A key may have a value. -/
inductive Accepts (engine : RegexEngine) (f : FieldSchema) : Value → Prop
  | null (h : f.nullable = true) : Accepts engine f .null
  | value {v : Value} (hnull : v ≠ .null) (htype : IsOf f.type v) (hmeets : f.Meets engine v) :
    Accepts engine f v

/-! ### Checking a value -/

theorem asksFor_iff (hf : f.constraints.hasNoTags = true) :
    f.AsksFor pattern ↔ (f.constraints.getName? "Regex").bind pattern? = some pattern := by
  rw [AsksFor, Option.bind_eq_some_iff]
  refine exists_congr fun rule => and_congr_right fun hrule => ?_
  exact (pattern?_eq_some_iff (Mapping.hasNoTags_of_getName? hf hrule)).symm

/-- Whether the pattern can be read is found out by reading it. -/
theorem compiles_iff (hf : f.constraints.hasNoTags = true) : f.Compiles engine ↔
    ((f.constraints.getName? "Regex").bind pattern?).all
      (fun pattern => (engine.compile (stripDelimiters pattern)).isOk) = true := by
  have hok : ∀ inner, (engine.compile inner).isOk = true ↔
      ∃ finds, engine.compile inner = .ok finds := by
    intro inner
    cases engine.compile inner <;> simp [Except.isOk, Except.toBool]
  simp only [Compiles, asksFor_iff hf, delimits_iff, Option.all_eq_true, hok]
  exact ⟨fun h pattern hpattern => h pattern _ hpattern rfl,
    fun h pattern inner hpattern heq => heq ▸ h pattern hpattern⟩

theorem offers_iff (hf : f.constraints.hasNoTags = true) {choices : List Value} :
    f.Offers choices ↔ (f.constraints.getName? "Choice").bind choices? = some choices := by
  rw [Offers, Option.bind_eq_some_iff]
  refine exists_congr fun rule => and_congr_right fun hrule => ?_
  exact (choices?_eq_some_iff (Mapping.hasNoTags_of_getName? hf hrule)).symm

theorem meetsNotBlank_iff : f.meetsNotBlank v = true ↔
    (f.constraints.containsName "NotBlank" = true → ¬Blank v) := by
  rw [meetsNotBlank, Bool.not_eq_true', Bool.and_eq_false_imp, ← isBlank_iff,
    Bool.not_eq_true]

theorem meetsChoice_iff (hf : f.constraints.hasNoTags = true) : f.meetsChoice v = true ↔
    ∀ choices, f.Offers choices → ∃ c ∈ choices, c.same v = true := by
  simp only [offers_iff hf, meetsChoice]
  cases (f.constraints.getName? "Choice").bind choices? with
  | none => simp
  | some choices => simp

/-- There is an answer on the pattern, since it can be read. -/
theorem exists_meetsRegex (hf : f.constraints.hasNoTags = true) (hread : f.Compiles engine)
    (hv : v.hasNoTags = true) : ∃ b, f.meetsRegex engine v = .ok b ∧ (b = true ↔
      ∀ pattern text, f.AsksFor pattern → v = .string text → Finds engine pattern text) := by
  rw [meetsRegex]
  cases hpattern : (f.constraints.getName? "Regex").bind pattern? with
  | none =>
    refine ⟨true, rfl, iff_of_true rfl fun pattern text hasks _ => ?_⟩
    rw [asksFor_iff hf, hpattern] at hasks
    cases hasks
  | some pattern =>
    cases htext : v.asString? with
    | none =>
      refine ⟨true, rfl, iff_of_true rfl fun pattern text _ heq => ?_⟩
      rw [(Value.asString?_iff hv).mpr heq] at htext
      cases htext
    | some text =>
      have hasks : f.AsksFor pattern := (asksFor_iff hf).mpr hpattern
      obtain ⟨finds, hfinds⟩ := hread pattern _ hasks (delimits_iff.mpr rfl)
      have hvalue := (Value.asString?_iff hv).mp htext
      refine ⟨finds text, by simp [hfinds], ?_⟩
      constructor
      · intro hfound pattern' text' hasks' heq
        rw [asksFor_iff hf, hpattern] at hasks'
        rw [hvalue] at heq
        cases hasks'
        cases heq
        exact ⟨_, finds, delimits_iff.mpr rfl, hfinds, hfound⟩
      · intro h
        obtain ⟨inner, finds', hinner, hfinds', hfound⟩ := h pattern text hasks hvalue
        rw [delimits_iff] at hinner
        rw [← hinner, hfinds] at hfinds'
        cases hfinds'
        exact hfound

/-- Nothing is found in exactly the values that are accepted. -/
theorem exists_violations (hf : f.constraints.hasNoTags = true) (hread : f.Compiles engine)
    (hv : v.hasNoTags = true) (key : String) : ∃ found, f.violations engine key v = .ok found ∧
      (found = [] ↔ f.Accepts engine v) ∧ ∀ t ∈ found, SaysOf key t := by
  by_cases hnull : v = .null
  · subst hnull
    have haccepts : f.Accepts engine .null ↔ f.nullable = true := by
      refine ⟨fun h => ?_, .null⟩
      cases h with
      | null h => exact h
      | value hnull => exact absurd rfl hnull
    refine ⟨if f.nullable then [] else [key ++ ": This value should not be null."], rfl, ?_,
      saysOf_of_mem_ite (saysOf_append "This value should not be null." rfl)⟩
    rw [haccepts]
    split <;> simp [*]
  have hisNull : v.isNull = false := by rwa [← Bool.not_eq_true, Value.isNull_iff hv]
  by_cases htype : hasType f.type v = true
  · obtain ⟨b, hregex, hb⟩ := exists_meetsRegex hf hread hv
    have haccepts : f.Accepts engine v ↔
        f.meetsNotBlank v = true ∧ b = true ∧ f.meetsChoice v = true := by
      rw [meetsNotBlank_iff, hb, meetsChoice_iff hf]
      constructor
      · intro h
        cases h with
        | null => exact absurd rfl hnull
        | value _ _ hmeets => exact ⟨hmeets.notBlank, hmeets.regex, hmeets.choice⟩
      · rintro ⟨hblank, hregex, hchoice⟩
        exact .value hnull ((hasType_iff hv).mp htype) ⟨hblank, hregex, hchoice⟩
    refine ⟨_, by simp only [violations, hisNull, htype, hregex]; rfl, ?_, ?_⟩
    · rw [haccepts]
      simp
    · simp only [List.forall_mem_append]
      exact ⟨⟨saysOf_of_mem_ite (saysOf_append "This value should not be blank." rfl),
        saysOf_of_mem_ite (saysOf_append "This value is not valid." rfl)⟩,
        saysOf_of_mem_ite (saysOf_append "The value you selected is not a valid choice." rfl)⟩
  · have hrefused : ¬f.Accepts engine v := by
      intro h
      cases h with
      | null => exact hnull rfl
      | value _ hof => exact htype ((hasType_iff hv).mpr hof)
    refine ⟨_, by simp only [violations, hisNull, htype]; rfl,
      iff_of_false (List.cons_ne_nil _ _) hrefused, ?_⟩
    refine List.forall_mem_singleton.mpr ?_
    have hstart : SaysOf key
        (key ++ ": This value should be of the correct primitive type (") :=
      saysOf_append "This value should be of the correct primitive type (" rfl
    exact (((hstart.append _).append _).append _).append _

end FieldSchema

/-! ### Checking an object -/

/-- What texts call a key. -/
def Value.label (k : Value) : String := k.asString?.getD k.sketch

namespace Schema

variable {engine : RegexEngine} {s : Schema} {o : ConfigObject}

/-- An object has a value under a key that the key may have. -/
def Fills (engine : RegexEngine) (s : Schema) (o : ConfigObject) (key : String) : Prop :=
  ∀ f, s.fields.get? key = some f → ∃ v, o.getName? key = some v ∧ f.Accepts engine v

/-- Objects may have a key: it is a string that is in the schema, or a base key. -/
def Allows (s : Schema) (k : Value) : Prop :=
  ∃ name, k = .string name ∧ (name ∈ s.fields.names ∨ name ∈ baseKeys)

/-- An object has what its schema asks for, and nothing else. -/
structure Conforms (engine : RegexEngine) (s : Schema) (o : ConfigObject) : Prop where
  fills : ∀ key ∈ s.fields.names, s.Fills engine o key
  allows : ∀ k ∈ o.keys, s.Allows k

/-- The constraints of all keys have no tags, and their patterns can be read. -/
def IsReadable (engine : RegexEngine) (s : Schema) : Prop :=
  ∀ e ∈ s.fields.entries, e.2.constraints.hasNoTags = true ∧ e.2.Compiles engine

theorem isReadable_of_all (h : s.fields.entries.all (fun e => e.2.constraints.hasNoTags &&
    ((e.2.constraints.getName? "Regex").bind FieldSchema.pattern?).all
      (fun pattern => (engine.compile (FieldSchema.stripDelimiters pattern)).isOk)) = true) :
    s.IsReadable engine := by
  intro e he
  obtain ⟨htags, hread⟩ := Bool.and_eq_true_iff.mp (List.all_eq_true.mp h e he)
  exact ⟨htags, (FieldSchema.compiles_iff htags).mpr hread⟩

theorem exists_fieldViolations (hs : s.IsReadable engine) (ho : o.hasNoTags = true) :
    ∃ found, s.fieldViolations engine o = .ok found ∧
      Blames (fun key => ¬s.Fills engine o key) id s.fields.names found := by
  obtain ⟨g, hok, htexts⟩ : ∃ g, s.fieldViolations engine o = .ok (s.fields.entries.flatMap g) ∧
      ∀ e ∈ s.fields.entries, (g e = [] ↔ ¬¬s.Fills engine o e.1) ∧ ∀ t ∈ g e, SaysOf e.1 t := by
    rw [fieldViolations]
    simp only [List.flatMap_def]
    refine (Except.exists_mapM_eq_ok_map
      (P := fun e found => (found = [] ↔ ¬¬s.Fills engine o e.1) ∧ ∀ t ∈ found, SaysOf e.1 t)
      ?_).imp fun g hg => ⟨Except.bind_eq_ok_iff.mpr ⟨_, hg.1, rfl⟩, hg.2⟩
    rintro ⟨key, f⟩ he
    have hget : s.fields.get? key = some f := NameMap.mem_entries_iff.mp he
    cases hv : o.getName? key with
    | none =>
      refine ⟨_, rfl, iff_of_false (List.cons_ne_nil _ _) (not_not_intro fun hfills => ?_), ?_⟩
      · obtain ⟨v, hv', -⟩ := hfills f hget
        rw [hv] at hv'
        cases hv'
      · have hstart : SaysOf key (key ++ ": '") := saysOf_append "'" rfl
        exact List.forall_mem_singleton.mpr ((hstart.append _).append _)
    | some v =>
      obtain ⟨htags, hread⟩ := hs _ he
      obtain ⟨found, hok, hnil, htexts⟩ := FieldSchema.exists_violations htags hread
        (Mapping.hasNoTags_of_getName? ho hv) key
      refine ⟨found, hok, ?_, htexts⟩
      rw [hnil, not_not]
      constructor
      · intro haccepts f' hf'
        rw [hget] at hf'
        cases hf'
        exact ⟨v, hv, haccepts⟩
      · intro hfills
        obtain ⟨v', hv', haccepts⟩ := hfills f hget
        rw [hv] at hv'
        cases hv'
        exact haccepts
  exact ⟨_, hok, (Blames.flatMap htexts).map⟩

theorem keyViolation?_eq_none_iff {k : Value} (hk : k.hasNoTags = true) :
    s.keyViolation? k = none ↔ s.Allows k := by
  rw [keyViolation?]
  cases hname : k.asString? with
  | none =>
    refine iff_of_false (Option.some_ne_none _) ?_
    rintro ⟨name, rfl, -⟩
    cases hname
  | some name =>
    have heq := (Value.asString?_iff hk).mp hname
    have hknown : (s.fields.contains name || baseKeys.contains name) = true ↔
        name ∈ s.fields.names ∨ name ∈ baseKeys := by
      rw [Bool.or_eq_true, NameMap.contains, NameMap.mem_names_iff, List.contains_iff_mem]
    have hallows : s.Allows k ↔ name ∈ s.fields.names ∨ name ∈ baseKeys := by
      rw [heq]
      refine ⟨?_, fun h => ⟨name, rfl, h⟩⟩
      rintro ⟨name', hname', h⟩
      cases hname'
      exact h
    rw [hallows, ← hknown]
    dsimp only
    split
    · rename_i h
      exact iff_of_true rfl h
    · rename_i h
      exact iff_of_false (Option.some_ne_none _) h

theorem saysOf_of_keyViolation? {k : Value} {text : String}
    (h : s.keyViolation? k = some text) : SaysOf k.label text := by
  rw [Value.label]
  unfold keyViolation? at h
  split at h
  · rename_i hname
    cases h
    rw [hname]
    exact saysOf_append "Keys must be strings." rfl
  · rename_i name hname
    split at h
    · cases h
    · cases h
      rw [hname]
      have hstart : SaysOf name (name ++ ": '") := saysOf_append "'" rfl
      exact (hstart.append _).append _

theorem blames_keyViolations (ho : o.hasNoTags = true) :
    Blames (fun k => ¬s.Allows k) Value.label o.keys (o.keys.filterMap s.keyViolation?) := by
  rw [List.filterMap_eq_flatMap_toList]
  refine .flatMap fun k hk => ⟨?_, fun t ht => ?_⟩
  · rw [Option.toList_eq_nil_iff, not_not]
    exact keyViolation?_eq_none_iff (Mapping.hasNoTags_of_mem_keys ho hk)
  · exact saysOf_of_keyViolation? (Option.mem_toList.mp ht)

end Schema

namespace Schemas

variable {engine : RegexEngine} {ss : Schemas} {o : ConfigObject}

/-- **What checking finds**, with any engine that can read the patterns. There is an answer, and it
is empty in exactly the cases where no schema counts for the name, where the schema is not to be
checked and where the object conforms. Otherwise each key that offends gets texts, and no other key
does: first the keys of the schema in name order, then those of the object in their order. -/
theorem blames_of_violations (hss : ∀ e ∈ ss, e.schema.IsReadable engine) (ho : o.hasNoTags = true)
    (name : String) : ∃ found, ss.violations engine name o = .ok found ∧
      (found = [] ↔ ∀ s, ss.schemaFor? name = some s → s.isFullyValidatable = true →
        s.Conforms engine o) ∧
      ∀ s, ss.schemaFor? name = some s → s.isFullyValidatable = true →
        s.fields.names.Pairwise (· < ·) ∧ ∃ first second, found = first ++ second ∧
          Blames (fun key => ¬s.Fills engine o key) id s.fields.names first ∧
          Blames (fun k => ¬s.Allows k) Value.label o.keys second := by
  rw [violations]
  cases hs : ss.schemaFor? name with
  | none => exact ⟨[], rfl, by simp, by simp⟩
  | some s =>
    by_cases hfull : s.isFullyValidatable = true
    · obtain ⟨e, he, rfl⟩ := exists_of_schemaFor? hs
      obtain ⟨first, hok, hfirst⟩ := Schema.exists_fieldViolations (hss e he) ho
      have hsecond := Schema.blames_keyViolations (s := e.schema) ho
      refine ⟨_, by simp only [hfull, hok]; rfl, ?_, ?_⟩
      · rw [List.append_eq_nil_iff, hfirst.eq_nil_iff, hsecond.eq_nil_iff]
        simp only [not_not]
        constructor
        · rintro ⟨hfills, hallows⟩ s ⟨⟩ -
          exact ⟨hfills, hallows⟩
        · intro h
          have hconforms := h e.schema rfl hfull
          exact ⟨hconforms.fills, hconforms.allows⟩
      · rintro s ⟨⟩ -
        exact ⟨e.schema.fields.ascending, first, _, rfl, hfirst, hsecond⟩
    · refine ⟨[], by simp [hfull], iff_of_true rfl ?_, ?_⟩
      · rintro s ⟨⟩ hfull'
        exact absurd hfull' hfull
      · rintro s ⟨⟩ hfull'
        exact absurd hfull' hfull

/-- A schema with a pattern, and a key that may be null but has to be there. -/
def noteSchema : Schema where
  constraints := .ofNames [("FullyValidatable", .null)]
  fields := .ofList [("id", ⟨"string", false, .ofNames [("Regex", .string "/^[a-z]+$/")]⟩),
    ("size", ⟨"integer", true, .empty⟩)]

/-- An object with a value that does not fit, without a key and with one too many. -/
def strangeNote : ConfigObject :=
  .ofNames [("more", .bool true), ("id", .string "B2"), ("uuid", .string "c3")]

theorem blames_strangeNote :
    ((∀ e ∈ [(⟨"core.note".toList.map .char, 9, noteSchema⟩ : SchemaEntry)],
      e.schema.IsReadable .own) ∧ strangeNote.hasNoTags = true) ∧
    ∃ found, violations .own [⟨"core.note".toList.map .char, 9, noteSchema⟩] "core.note" strangeNote
        = .ok found ∧
      found = ["id: This value is not valid.", "size: 'size' is a required key.",
        "more: 'more' is not a supported key."] ∧ ¬noteSchema.Conforms .own strangeNote := by
  have hread : ∀ e ∈ [(⟨"core.note".toList.map .char, 9, noteSchema⟩ : SchemaEntry)],
      e.schema.IsReadable .own :=
    List.forall_mem_singleton.mpr (Schema.isReadable_of_all (by decide +kernel))
  have htags : strangeNote.hasNoTags = true := by decide
  have hfound : ∃ found,
      violations .own [⟨"core.note".toList.map .char, 9, noteSchema⟩] "core.note" strangeNote
        = .ok found ∧
      found = ["id: This value is not valid.", "size: 'size' is a required key.",
        "more: 'more' is not a supported key."] := by decide +kernel
  refine ⟨⟨hread, htags⟩, ?_⟩
  obtain ⟨found, hok, hnil, -⟩ := blames_of_violations hread htags "core.note"
  obtain ⟨found', hok', heq⟩ := hfound
  cases hok.symm.trans hok'
  refine ⟨found, hok, heq, fun hconforms => ?_⟩
  have hempty : found = [] := hnil.mpr fun s hs _ => by
    cases hs
    exact hconforms
  cases heq.symm.trans hempty

end Schemas

end Cookbook
