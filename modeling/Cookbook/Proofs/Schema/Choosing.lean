import Cookbook.Schema.Basic
import Mathlib.Data.List.Forall2
import Mathlib.Data.List.Induction
import Mathlib.Data.List.TakeWhile

/-!
# Which schema counts for a name

The schemas of documents are added one after the other, each under its key. For a name the last of
the heaviest whose keys fit it counts, where a key weighs as much as it has characters other than
asterisks.

A name without signs of patterns fits itself and weighs as much as it is long. So a key that is the
name itself is heavier than any key that leaves a character of the name to an asterisk. It is not
heavier than a key whose asterisks stand for nothing, or whose question marks stand for single
characters: of these the last counts. And it is lighter than some keys with brackets, which stand
for one character and weigh as many as they are written with, or with two asterisks in a row, which
may stand for nothing together with the slash after them. So what is defined under a name itself
may not count for that name, and `Schemas.chosen_of_defined` says when it does.

## Main definitions

* `NamePattern.IsPlain`, `NamePattern.Covers`: patterns without brackets and without two asterisks
  in a row, and those whose asterisks stand for nothing.
* `NamePattern.IsLiteral`: a text has no sign that patterns give a meaning to.
* `Schemas.definitions`, `Schemas.loaded`: what documents define.
* `Schemas.Fits`, `Schemas.weight`, `Schemas.Counts`: which keys fit a name, what they weigh, and
  which definition counts.

## Main results

* `NamePattern.countP_of_fitsChars`: how many characters a plain pattern takes at least.
* `Schemas.loaded_eq`: the schemas of documents are what these define, in order.
* `Schemas.heaviest_eq_some_iff`, `Schemas.schemaFor?_eq_some_iff`: which schema counts.
* `Schemas.chosen_of_defined`: which schema is used for a name under which one is defined.
-/

namespace Cookbook

/-! ### Plain patterns -/

namespace NamePattern

variable {fuel : Nat} {start : Bool} {c : Char} {cs ns : List Char} {ts : List Token}
  {key name : String}

/-- What a character stands for outside of brackets, unless it is one of two asterisks in a row. -/
def Token.ofChar (c : Char) : Token :=
  if c = '?' then .anyChar else if c = '*' then .anySequence else .char c

/-- A text without brackets and without two asterisks in a row. -/
def IsPlain (cs : List Char) : Prop := '[' ∉ cs ∧ ¬['*', '*'] <:+: cs

theorem IsPlain.of_cons (h : IsPlain (c :: cs)) : IsPlain cs :=
  ⟨fun hmem => h.1 (List.mem_cons_of_mem _ hmem),
    fun hin => h.2 (hin.trans (List.suffix_cons ..).isInfix)⟩

theorem tokens?_of_isPlain (hcs : IsPlain cs) (hfuel : cs.length < fuel) :
    tokens? fuel start cs = .ok (cs.map Token.ofChar) := by
  induction cs generalizing fuel start with
  | nil => cases fuel <;> rfl
  | cons c cs ih =>
    cases fuel with
    | zero => cases hfuel
    | succ fuel =>
      have hstep : ∀ start, tokens? fuel start cs = .ok (cs.map Token.ofChar) := fun _ =>
        ih hcs.of_cons (Nat.lt_of_succ_lt_succ hfuel)
      have hset : c ≠ '[' := fun heq => hcs.1 (heq ▸ List.mem_cons_self)
      by_cases hany : c = '?'
      · subst hany
        rw [tokens?, hstep]
        rfl
      by_cases hsequence : c = '*'
      · subst hsequence
        have hone : ∀ rest, cs = '*' :: rest → False := by
          rintro rest rfl
          exact hcs.2 (List.prefix_append ['*', '*'] rest).isInfix
        rw [tokens?, hstep]
        · rfl
        · exact fun rest heq => hone _ heq
        · exact hone
      · rw [tokens?, hstep, List.map_cons, Token.ofChar, if_neg hany, if_neg hsequence]
        · rfl
        all_goals assumption

theorem ofText_of_isPlain (h : IsPlain key.toList) :
    ofText key = .ok (key.toList.map Token.ofChar) :=
  tokens?_of_isPlain h (by rw [String.length_toList]; exact Nat.lt_succ_self _)

/-- Each character but the asterisks takes one character. -/
theorem fitsChars_ofChar_cons (hc : c ≠ '*') : fitsChars (Token.ofChar c :: ts) ns = true ↔
    ∃ n rest, ns = n :: rest ∧ (c = '?' ∨ c = n) ∧ fitsChars ts rest = true := by
  cases ns with
  | nil =>
    refine iff_of_false (fun h => ?_) ?_
    · rw [Token.ofChar, if_neg hc] at h
      split at h <;> cases h
    · rintro ⟨n, rest, ⟨⟩, -⟩
  | cons n ns =>
    have htakes : (Token.ofChar c).takes n = true ↔ c = '?' ∨ c = n := by
      rw [Token.ofChar, if_neg hc]
      split
      · exact iff_of_true rfl (.inl ‹_›)
      · rename_i hany
        have hchar : (Token.char c).takes n = (c == n) := rfl
        rw [hchar, beq_iff_eq, or_iff_right hany]
    have hfits : fitsChars (Token.ofChar c :: ts) (n :: ns) =
        ((Token.ofChar c).takes n && fitsChars ts ns) := by
      rw [Token.ofChar, if_neg hc]
      split <;> rfl
    rw [hfits, Bool.and_eq_true, htakes]
    constructor
    · exact fun h => ⟨n, ns, rfl, h⟩
    · rintro ⟨n, ns, ⟨⟩, h⟩
      exact h

/-- An asterisk takes some characters, or none. -/
theorem exists_of_anySuffix {p : List Char → Bool} (h : anySuffix p ns = true) :
    ∃ rest, rest.length ≤ ns.length ∧ p rest = true ∧ (rest.length = ns.length → rest = ns) := by
  induction ns with
  | nil => exact ⟨[], Nat.le_refl _, h, fun _ => rfl⟩
  | cons n ns ih =>
    rw [anySuffix, Bool.or_eq_true] at h
    rcases h with h | h
    · exact ⟨n :: ns, Nat.le_refl _, h, fun _ => rfl⟩
    · obtain ⟨rest, hle, hrest, -⟩ := ih h
      refine ⟨rest, Nat.le_succ_of_le hle, hrest, fun heq => ?_⟩
      exact absurd (heq ▸ hle) (Nat.not_succ_le_self _)

theorem anySuffix_of_self {p : List Char → Bool} (h : p ns = true) : anySuffix p ns = true := by
  cases ns with
  | nil => exact h
  | cons n ns => rw [anySuffix, h, Bool.true_or]

/-- The characters without asterisks are those of a name, question marks standing for any. -/
def Covers (cs ns : List Char) : Prop :=
  (cs.filter (· != '*')).Forall₂ (fun c n => c = '?' ∨ c = n) ns

/-- A plain pattern takes at least as many characters as it has apart from asterisks. If it takes
no more, its asterisks stand for nothing. -/
theorem countP_of_fitsChars (h : fitsChars (cs.map Token.ofChar) ns = true) :
    cs.countP (· != '*') ≤ ns.length ∧ (cs.countP (· != '*') = ns.length → Covers cs ns) := by
  induction cs generalizing ns with
  | nil =>
    refine ⟨Nat.zero_le _, fun heq => ?_⟩
    rw [List.length_eq_zero_iff.mp heq.symm]
    exact .nil
  | cons c cs ih =>
    rw [List.map_cons] at h
    by_cases hc : c = '*'
    · subst hc
      obtain ⟨rest, hle, hrest, hself⟩ := exists_of_anySuffix h
      obtain ⟨hweight, hcovers⟩ := ih hrest
      rw [List.countP_cons_of_neg (by simp), Covers, List.filter_cons_of_neg (by simp)]
      refine ⟨Nat.le_trans hweight hle, fun heq => ?_⟩
      have hlength : rest.length = ns.length := Nat.le_antisymm hle (heq ▸ hweight)
      obtain rfl := hself hlength
      exact hcovers heq
    · obtain ⟨n, rest, rfl, htakes, hrest⟩ := (fitsChars_ofChar_cons hc).mp h
      obtain ⟨hweight, hcovers⟩ := ih hrest
      rw [List.countP_cons_of_pos (by simpa using hc), Covers,
        List.filter_cons_of_pos (by simpa using hc)]
      refine ⟨Nat.succ_le_succ hweight, fun heq => ?_⟩
      exact .cons htakes (hcovers (Nat.succ.inj heq))

theorem fitsChars_of_covers (h : Covers cs ns) : fitsChars (cs.map Token.ofChar) ns = true := by
  induction cs generalizing ns with
  | nil =>
    cases h
    rfl
  | cons c cs ih =>
    rw [List.map_cons]
    by_cases hc : c = '*'
    · subst hc
      rw [Covers, List.filter_cons_of_neg (by simp)] at h
      exact anySuffix_of_self (ih h)
    · rw [Covers, List.filter_cons_of_pos (by simpa using hc)] at h
      cases h with
      | cons htakes hrest => exact (fitsChars_ofChar_cons hc).mpr ⟨_, _, rfl, htakes, ih hrest⟩

/-! ### Names as patterns -/

/-- A text has no sign that patterns give a meaning to. -/
def IsLiteral (s : String) : Prop := ∀ c ∈ s.toList, c ≠ '?' ∧ c ≠ '*' ∧ c ≠ '['

instance : DecidablePred IsLiteral := fun s => List.decidableBAll _ s.toList

theorem IsLiteral.isPlain (h : IsLiteral name) : IsPlain name.toList := by
  refine ⟨fun hmem => (h _ hmem).2.2 rfl, fun hin => ?_⟩
  exact (h '*' (hin.subset List.mem_cons_self)).2.1 rfl

theorem IsLiteral.filter_eq (h : IsLiteral name) :
    name.toList.filter (· != '*') = name.toList :=
  List.filter_eq_self.mpr fun c hc => by simpa using (h c hc).2.1

end NamePattern

/-! ### Documents -/

namespace Schemas

variable {ss : Schemas} {docs : List String} {key name : String} {s : Schema}

/-- The pattern of a key can be read. -/
def isReadable (key : String) : Bool := (NamePattern.ofText key).toOption.isSome

/-- What a document defines: its schemas with their keys, up to the first key that is a malformed
pattern. -/
def definitions (text : String) : List (String × Schema) :=
  match Yaml.readAs (Yaml.DecodeM.nameMap Schema.decode) text with
  | .error _ => []
  | .ok found => found.entries.takeWhile (isReadable ·.1)

/-- What a key weighs: the number of its characters other than asterisks. -/
def weight (key : String) : Nat := key.toList.countP (· != '*')

/-- A schema under a key as an entry. -/
def entryOf (d : String × Schema) : SchemaEntry :=
  ⟨(NamePattern.ofText d.1).toOption.getD [], weight d.1, d.2⟩

/-- The schemas of documents, added one document after the other. -/
def loaded (docs : List String) : Schemas := docs.foldl (fun ss text => (ss.add text).2) []

theorem add_eq (ss : Schemas) (text : String) :
    (ss.add text).2 = ss ++ (definitions text).map entryOf := by
  have hgo : ∀ (ds : List (String × Schema)) (ss : Schemas),
      (add.go ss ds).2 = ss ++ (ds.takeWhile (isReadable ·.1)).map entryOf := by
    intro ds
    induction ds with
    | nil => simp [add.go]
    | cons d ds ih =>
      intro ss
      obtain ⟨key, schema⟩ := d
      rw [add.go, List.takeWhile_cons, isReadable]
      cases hpattern : NamePattern.ofText key with
      | error e => simp [Except.toOption]
      | ok pattern =>
        simp [ih, Except.toOption, entryOf, hpattern, weight]
  -- the equation of `add` is not used here, since its proof takes the reader apart
  delta add definitions
  cases Yaml.readAs (Yaml.DecodeM.nameMap Schema.decode) text with
  | error e => simp
  | ok found => exact hgo found.entries ss

theorem loaded_eq (docs : List String) :
    loaded docs = (docs.flatMap definitions).map entryOf := by
  have hfold : ∀ (docs : List String) (ss : Schemas),
      docs.foldl (fun ss text => (ss.add text).2) ss
        = ss ++ (docs.flatMap definitions).map entryOf := by
    intro docs
    induction docs with
    | nil => simp
    | cons text docs ih =>
      intro ss
      rw [List.foldl_cons, ih, add_eq]
      simp
  exact hfold docs []

/-! ### The heaviest -/

theorem heaviest_concat (ss : Schemas) (last : SchemaEntry) : heaviest (ss ++ [last]) =
    match heaviest ss with
    | some best => if last.weight < best.weight then some best else some last
    | none => some last := by
  rw [heaviest, List.foldl_append]
  rfl

theorem heaviest_ne_none (h : ss ≠ []) : heaviest ss ≠ none := by
  induction ss using List.reverseRecOn with
  | nil => exact absurd rfl h
  | append_singleton ss last =>
    rw [heaviest_concat]
    split
    · split <;> exact Option.some_ne_none _
    · exact Option.some_ne_none _

/-- The heaviest entry is as heavy as those before it and heavier than those after it. -/
theorem heaviest_eq_some_iff {e : SchemaEntry} : heaviest ss = some e ↔
    ∃ before after, ss = before ++ e :: after ∧ (∀ b ∈ before, b.weight ≤ e.weight) ∧
      ∀ a ∈ after, a.weight < e.weight := by
  induction ss using List.reverseRecOn generalizing e with
  | nil => simp [heaviest]
  | append_singleton ss last ih =>
    rw [heaviest_concat]
    constructor
    · intro h
      cases hbest : heaviest ss with
      | none =>
        rw [hbest] at h
        cases h
        have hnil : ss = [] := by
          by_contra hne
          exact heaviest_ne_none hne hbest
        exact ⟨[], [], by rw [hnil, List.nil_append], List.forall_mem_nil _, List.forall_mem_nil _⟩
      | some best =>
        rw [hbest] at h
        obtain ⟨before, after, rfl, hbefore, hafter⟩ := ih.mp hbest
        dsimp only at h
        split at h
        · rename_i hlight
          cases h
          refine ⟨before, after ++ [last], by simp, hbefore, ?_⟩
          rw [List.forall_mem_append]
          exact ⟨hafter, List.forall_mem_singleton.mpr hlight⟩
        · rename_i hheavy
          cases h
          have hle := Nat.not_lt.mp hheavy
          refine ⟨before ++ best :: after, [], rfl, ?_, List.forall_mem_nil _⟩
          rw [List.forall_mem_append, List.forall_mem_cons]
          exact ⟨fun b hb => Nat.le_trans (hbefore b hb) hle, hle,
            fun a ha => Nat.le_trans (Nat.le_of_lt (hafter a ha)) hle⟩
    · rintro ⟨before, after, hsplit, hbefore, hafter⟩
      rcases List.eq_nil_or_concat' after with rfl | ⟨after, last', rfl⟩
      · obtain ⟨rfl, hlast⟩ := List.append_inj' hsplit rfl
        cases hlast
        cases hbest : heaviest ss with
        | none => rfl
        | some best =>
          -- the heaviest of those before is one of them
          obtain ⟨front, rest, rfl, -, -⟩ := ih.mp hbest
          have hle := hbefore best (by simp)
          dsimp only
          rw [if_neg (Nat.not_lt.mpr hle)]
      · have hsplit' : ss ++ [last] = (before ++ e :: after) ++ [last'] := by simpa using hsplit
        obtain ⟨rfl, hlast⟩ := List.append_inj' hsplit' rfl
        cases hlast
        rw [List.forall_mem_append, List.forall_mem_singleton] at hafter
        rw [ih.mpr ⟨before, after, rfl, hbefore, hafter.1⟩]
        dsimp only
        rw [if_pos hafter.2]

theorem mem_of_heaviest {e : SchemaEntry} (h : heaviest ss = some e) : e ∈ ss := by
  obtain ⟨before, after, rfl, -, -⟩ := heaviest_eq_some_iff.mp h
  simp

/-- The schema that counts is one of those that were added. -/
theorem exists_of_schemaFor? (h : ss.schemaFor? name = some s) : ∃ e ∈ ss, e.schema = s := by
  obtain ⟨e, he, hs⟩ := Option.map_eq_some_iff.mp h
  exact ⟨e, (List.mem_filter.mp (mem_of_heaviest he)).1, hs⟩

/-! ### The schema that counts -/

/-- A key is a pattern that a name fits. -/
def Fits (key name : String) : Prop :=
  ∃ pattern, NamePattern.ofText key = .ok pattern ∧ NamePattern.fits pattern name = true

/-- Of the definitions whose keys fit a name, one is as heavy as those before it and heavier than
those after it. -/
structure Counts (name : String) (defined before : List (String × Schema)) (d : String × Schema)
    (after : List (String × Schema)) : Prop where
  split : defined = before ++ d :: after
  fits : Fits d.1 name
  before : ∀ b ∈ before, Fits b.1 name → weight b.1 ≤ weight d.1
  after : ∀ a ∈ after, Fits a.1 name → weight a.1 < weight d.1

theorem isReadable_of_mem {text : String} {d : String × Schema} (h : d ∈ definitions text) :
    isReadable d.1 = true := by
  delta definitions at h
  split at h
  · cases h
  · have hread := List.mem_takeWhile_imp h
    exact hread

theorem fits_entryOf_iff {d : String × Schema} (h : isReadable d.1 = true) :
    NamePattern.fits (entryOf d).pattern name = true ↔ Fits d.1 name := by
  rw [isReadable] at h
  rw [Fits, entryOf]
  cases hpattern : NamePattern.ofText d.1 with
  | error e =>
    rw [hpattern] at h
    cases h
  | ok pattern => simp [Except.toOption]

/-- The heaviest of the entries that pass a test. -/
theorem heaviest_filter_eq_some_iff {p : SchemaEntry → Bool} {e : SchemaEntry} :
    heaviest (ss.filter p) = some e ↔ ∃ before after, ss = before ++ e :: after ∧ p e = true ∧
      (∀ b ∈ before, p b = true → b.weight ≤ e.weight) ∧
      ∀ a ∈ after, p a = true → a.weight < e.weight := by
  rw [heaviest_eq_some_iff]
  constructor
  · rintro ⟨before, after, hsplit, hbefore, hafter⟩
    obtain ⟨ss₁, ss₂, rfl, rfl, hrest⟩ := List.filter_eq_append_iff.mp hsplit
    obtain ⟨ss₂, after, rfl, hpass, he, rfl⟩ := List.filter_eq_cons_iff.mp hrest
    refine ⟨ss₁ ++ ss₂, after, by simp, he, ?_, ?_⟩
    · rw [List.forall_mem_append]
      exact ⟨fun b hb hp => hbefore b (List.mem_filter.mpr ⟨hb, hp⟩),
        fun b hb hp => absurd hp (hpass b hb)⟩
    · exact fun a ha hp => hafter a (List.mem_filter.mpr ⟨ha, hp⟩)
  · rintro ⟨before, after, rfl, he, hbefore, hafter⟩
    refine ⟨before.filter p, after.filter p, by simp [he], ?_, ?_⟩
    · exact fun b hb => hbefore b (List.mem_filter.mp hb).1 (List.mem_filter.mp hb).2
    · exact fun a ha => hafter a (List.mem_filter.mp ha).1 (List.mem_filter.mp ha).2

theorem isReadable_of_mem_docs {d : String × Schema} (h : d ∈ docs.flatMap definitions) :
    isReadable d.1 = true := by
  obtain ⟨text, -, h⟩ := List.mem_flatMap.mp h
  exact isReadable_of_mem h

theorem schemaFor?_eq_some_iff : (loaded docs).schemaFor? name = some s ↔
    ∃ before key after, Counts name (docs.flatMap definitions) before (key, s) after := by
  have hreadable : ∀ d ∈ docs.flatMap definitions, isReadable d.1 = true :=
    fun d hd => isReadable_of_mem_docs hd
  rw [schemaFor?, loaded_eq, Option.map_eq_some_iff]
  generalize docs.flatMap definitions = ds at hreadable
  simp only [heaviest_filter_eq_some_iff]
  constructor
  · rintro ⟨e, ⟨before, after, hsplit, he, hbefore, hafter⟩, rfl⟩
    obtain ⟨before, rest, rfl, rfl, hrest⟩ := List.map_eq_append_iff.mp hsplit
    obtain ⟨d, after, rfl, rfl, rfl⟩ := List.map_eq_cons_iff.mp hrest
    rw [List.forall_mem_append, List.forall_mem_cons] at hreadable
    rw [List.forall_mem_map] at hbefore hafter
    refine ⟨before, d.1, after, rfl, (fits_entryOf_iff hreadable.2.1).mp he, ?_, ?_⟩
    · exact fun b hb hfits => hbefore b hb ((fits_entryOf_iff (hreadable.1 b hb)).mpr hfits)
    · exact fun a ha hfits => hafter a ha ((fits_entryOf_iff (hreadable.2.2 a ha)).mpr hfits)
  · rintro ⟨before, key, after, rfl, he, hbefore, hafter⟩
    rw [List.forall_mem_append, List.forall_mem_cons] at hreadable
    refine ⟨entryOf (key, s), ⟨before.map entryOf, after.map entryOf, by simp,
      (fits_entryOf_iff hreadable.2.1).mpr he, ?_, ?_⟩, rfl⟩
    · rw [List.forall_mem_map]
      exact fun b hb hfits => hbefore b hb ((fits_entryOf_iff (hreadable.1 b hb)).mp hfits)
    · rw [List.forall_mem_map]
      exact fun a ha hfits => hafter a ha ((fits_entryOf_iff (hreadable.2.2 a ha)).mp hfits)

/-! ### Names under which a schema is defined -/

theorem weight_of_literal (h : NamePattern.IsLiteral name) : weight name = name.length := by
  rw [weight, List.countP_eq_length_filter, h.filter_eq, String.length_toList]

theorem fits_self (h : NamePattern.IsLiteral name) : Fits name name := by
  refine ⟨_, NamePattern.ofText_of_isPlain h.isPlain, NamePattern.fitsChars_of_covers ?_⟩
  rw [NamePattern.Covers, h.filter_eq]
  exact List.forall₂_same.mpr fun c _ => .inr rfl

/-- A plain key that fits a name is no heavier than the name is long, and as heavy only if its
asterisks stand for nothing. -/
theorem weight_of_fits (hkey : NamePattern.IsPlain key.toList) (h : Fits key name) :
    weight key ≤ name.length ∧
      (weight key = name.length → NamePattern.Covers key.toList name.toList) := by
  obtain ⟨pattern, hpattern, hfits⟩ := h
  rw [NamePattern.ofText_of_isPlain hkey] at hpattern
  cases hpattern
  rw [← String.length_toList]
  exact NamePattern.countP_of_fitsChars hfits

section Counts

variable {ds before before' after after' : List (String × Schema)} {d d' : String × Schema}

/-- What counts is not among the definitions after another that counts. -/
theorem Counts.not_mem_after (h : Counts name ds before d after)
    (h' : Counts name ds before' d' after') (hbefore : d ∈ before') : d' ∉ after := by
  intro hafter
  have hlt := h.after d' hafter h'.fits
  exact absurd (h'.before d hbefore h.fits) (Nat.not_le.mpr hlt)

/-- Two definitions that count for a name are the same. -/
theorem Counts.unique (h : Counts name ds before d after)
    (h' : Counts name ds before' d' after') : d = d' := by
  have hsplit := h.split.symm.trans h'.split
  rcases List.append_eq_append_iff.mp hsplit with ⟨between, rfl, hrest⟩ | ⟨between, rfl, hrest⟩
  · cases between with
    | nil => exact (List.cons.inj hrest).1
    | cons b between =>
      obtain ⟨rfl, rfl⟩ := List.cons.inj hrest
      exact absurd (by simp) (h.not_mem_after h' (by simp))
  · cases between with
    | nil => exact (List.cons.inj hrest).1.symm
    | cons b between =>
      obtain ⟨rfl, rfl⟩ := List.cons.inj hrest
      exact absurd (by simp) (h'.not_mem_after h (by simp))

/-- What counts is as heavy as any definition whose key fits. -/
theorem Counts.weight_le (h : Counts name ds before d after) (hd' : d' ∈ ds)
    (hfits : Fits d'.1 name) : weight d'.1 ≤ weight d.1 := by
  rw [h.split, List.mem_append, List.mem_cons] at hd'
  rcases hd' with hd' | rfl | hd'
  · exact h.before d' hd' hfits
  · exact Nat.le_refl _
  · exact Nat.le_of_lt (h.after d' hd' hfits)

end Counts

/-- For a name that a definition fits, some schema counts. -/
theorem exists_schemaFor? {d : String × Schema} (hd : d ∈ docs.flatMap definitions)
    (hfits : Fits d.1 name) : ∃ s, (loaded docs).schemaFor? name = some s := by
  have hmem : entryOf d ∈ (loaded docs).filter (NamePattern.fits ·.pattern name) := by
    rw [loaded_eq, List.mem_filter]
    exact ⟨List.mem_map_of_mem hd, (fits_entryOf_iff (isReadable_of_mem_docs hd)).mpr hfits⟩
  have hne := heaviest_ne_none (List.ne_nil_of_mem hmem)
  rw [← Option.isSome_iff_exists, schemaFor?, Option.isSome_map]
  exact Option.isSome_iff_ne_none.mpr hne

/-- **Which schema is used for a name under which one is defined.** It is the last of the heaviest
whose keys the name fits. So it is defined under the name itself exactly if no key that fits weighs
more, and none that is defined later weighs as much; and otherwise it is defined under a key that
has brackets or two asterisks in a row, or that is the name but for asterisks and question marks. -/
theorem chosen_of_defined (hname : NamePattern.IsLiteral name)
    (hdefined : ∃ s, (name, s) ∈ docs.flatMap definitions) :
    ∃ before key s after, Counts name (docs.flatMap definitions) before (key, s) after ∧
      (loaded docs).schemaFor? name = some s ∧
      (loaded docs).checks name = s.isFullyValidatable ∧
      (∀ engine o, (loaded docs).violations engine name o = if s.isFullyValidatable then
        (do return (← s.fieldViolations engine o) ++ o.keys.filterMap s.keyViolation?)
        else .ok []) ∧
      (NamePattern.IsPlain key.toList → NamePattern.Covers key.toList name.toList) ∧
      (key = name ↔ ∃ before s after, docs.flatMap definitions = before ++ (name, s) :: after ∧
        (∀ b ∈ before, Fits b.1 name → weight b.1 ≤ name.length) ∧
        ∀ a ∈ after, Fits a.1 name → weight a.1 < name.length) := by
  obtain ⟨s₀, hs₀⟩ := hdefined
  obtain ⟨s, hs⟩ := exists_schemaFor? hs₀ (fits_self hname)
  obtain ⟨before, key, after, hcounts⟩ := schemaFor?_eq_some_iff.mp hs
  have hlength : name.length ≤ weight key :=
    weight_of_literal hname ▸ hcounts.weight_le hs₀ (fits_self hname)
  refine ⟨before, key, s, after, hcounts, hs, ?_, fun _ o => ?_, fun hplain => ?_, ?_⟩
  · rw [checks, hs]
    rfl
  · rw [violations, hs]
    cases hfull : s.isFullyValidatable <;> simp [hfull]
  · obtain ⟨hle, hcovers⟩ := weight_of_fits hplain hcounts.fits
    exact hcovers (Nat.le_antisymm hle hlength)
  · constructor
    · rintro rfl
      have hweight := weight_of_literal hname
      exact ⟨before, s, after, hcounts.split,
        fun b hb hfits => hweight ▸ hcounts.before b hb hfits,
        fun a ha hfits => hweight ▸ hcounts.after a ha hfits⟩
    · rintro ⟨before', s', after', hsplit, hbefore', hafter'⟩
      rw [← weight_of_literal hname] at hbefore' hafter'
      have hcounts' : Counts name (docs.flatMap definitions) before' (name, s') after' :=
        ⟨hsplit, fits_self hname, hbefore', hafter'⟩
      exact congrArg Prod.fst (hcounts.unique hcounts')

/-- A document with a schema for `core.note` and one for all names that start with it. -/
def shadowing : String :=
  "core.note:\n  constraints:\n    FullyValidatable: ~\ncore.note*:\n  mapping: \x7b\x7d\n"

/-- The asterisk stands for nothing, so the key with it weighs as much as the name and comes later:
objects of the name itself are not checked, although their schema asks for it. -/
theorem chosen_of_shadowing : (NamePattern.IsLiteral "core.note" ∧
    ∃ s, ("core.note", s) ∈ [shadowing].flatMap definitions ∧ s.isFullyValidatable = true) ∧
    ∃ before s after,
      Counts "core.note" ([shadowing].flatMap definitions) before ("core.note*", s) after ∧
      (loaded [shadowing]).checks "core.note" = false := by
  have hname : NamePattern.IsLiteral "core.note" := by decide
  have hdefined : ([shadowing].flatMap definitions).map (fun d => (d.1, d.2.isFullyValidatable))
      = [("core.note", true), ("core.note*", false)] := by decide +kernel
  have hunchecked : (loaded [shadowing]).checks "core.note" = false := by decide +kernel
  generalize [shadowing] = docs at hdefined hunchecked ⊢
  have hfirst : ("core.note", true) ∈
      (docs.flatMap definitions).map (fun d => (d.1, d.2.isFullyValidatable)) := by
    rw [hdefined]
    exact List.mem_cons_self
  obtain ⟨⟨name, s⟩, hs, heq⟩ := List.mem_map.mp hfirst
  obtain ⟨rfl, hfull⟩ := Prod.mk.inj heq
  refine ⟨⟨hname, s, hs, hfull⟩, ?_⟩
  obtain ⟨before, key, s', after, hcounts, -, hchecks, -⟩ := chosen_of_defined hname ⟨s, hs⟩
  -- the schema that counts is not to be checked, so it is the other one
  have hmem : (key, s'.isFullyValidatable) ∈ [("core.note", true), ("core.note*", false)] := by
    rw [← hdefined, hcounts.split]
    simp
  rw [← hchecks, hunchecked] at hmem
  have hkey : key = "core.note*" := by simpa using hmem
  exact ⟨before, s', after, hkey ▸ hcounts, hunchecked⟩

end Schemas

end Cookbook
