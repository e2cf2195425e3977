import Cookbook.Action.Expression
import Cookbook.Proofs.EntityType
import Cookbook.Proofs.NameMap
import Cookbook.Proofs.Regex.Matching
import Cookbook.Proofs.Regex.Reading
import Cookbook.Proofs.Workspace

/-!
# The names that an expression stands for

An expression is compared with names by a regular expression that is written for it. What is meant
is that something is filled in for each asterisk, one or more characters of a segment, and that all
else stays as it is: `Expression.Filled`. The regular expression matches just those names.

That rests on its notation. Escaping puts a backslash before every character with a meaning of its
own, backslashes included, so an escaped asterisk is found where an asterisk was and nowhere else,
and what the notation is read as has one part for each character of the expression.

Only the names that start with the stem of a type are compared. This leaves out none that an
expression of that type stands for, as long as there is no asterisk in the stem.

## Main definitions

* `Expression.Filled`: a name with something filled in for the asterisks of an expression.
* `Expression.sequenceOf`: the regular expression, part by part.

## Main results

* `Expression.regex_eq`: what the notation for an expression is read as.
* `Expression.fits_iff`: the regular expression matches the names that are meant.
* `Expression.found_of_wildcard`: the names that a wildcard stands for.
-/

namespace Cookbook

open Change

namespace Expression

variable {c : Char} {e cs rest put : List Char} {p q : Regex.Place}

/-! ### What is meant -/

/-- A character of a segment. -/
def IsSegmentChar (c : Char) : Prop := c ∉ ['.', ':', '?', '*', '<', '>', '"', '\'', '/', '\\']

/-- A name is an expression in which one or more characters of a segment are filled in for each
asterisk. -/
inductive Filled : List Char → List Char → Prop
  | nil : Filled [] []
  | char {c : Char} {e cs : List Char} (hc : c ≠ '*') (h : Filled e cs) : Filled (c :: e) (c :: cs)
  | star {put e cs : List Char} (hne : put ≠ []) (hput : ∀ c ∈ put, IsSegmentChar c)
    (h : Filled e cs) : Filled ('*' :: e) (put ++ cs)

namespace Filled

/-- Nothing is filled in shorter than the asterisk. -/
theorem length_le (h : Filled e cs) : e.length ≤ cs.length := by
  induction h with
  | nil => exact Nat.le_refl _
  | char _ _ ih => exact Nat.succ_le_succ ih
  | @star put e cs hne _ _ ih =>
    have hput : 0 < put.length := List.length_pos_of_ne_nil hne
    rw [List.length_cons, List.length_append]
    omega

/-- No dot is filled in. -/
theorem count_dot (h : Filled e cs) : cs.count '.' = e.count '.' := by
  induction h with
  | nil => rfl
  | char _ _ ih => rw [List.count_cons, List.count_cons, ih]
  | @star put e cs _ hput _ ih =>
    have hdot : put.count '.' = 0 := List.count_eq_zero.mpr fun hmem => hput '.' hmem (by decide)
    rw [List.count_append, hdot, ih, Nat.zero_add, List.count_cons_of_ne (by decide)]

/-- What has no asterisk stays in front. -/
theorem exists_of_append (h : Filled (e ++ rest) cs) (he : '*' ∉ e) :
    ∃ cs', cs = e ++ cs' ∧ Filled rest cs' := by
  induction e generalizing cs with
  | nil => exact ⟨cs, rfl, h⟩
  | cons c e ih =>
    rw [List.mem_cons, not_or] at he
    cases h with
    | char _ h =>
      obtain ⟨cs', rfl, h'⟩ := ih h he.2
      exact ⟨cs', rfl, h'⟩
    | star => exact absurd rfl he.1

end Filled

/-! ### The notation -/

/-- The notation for a character of an expression. -/
def piece (c : Char) : List Char :=
  if c = '*' then starPattern.toList else if Regex.isMeta c then ['\\', c] else [c]

theorem toList_starPattern : starPattern.toList
    = ['[', '^', '.', ':', '?', '*', '<', '>', '"', '\'', '/', '\\', '\\', ']', '+'] :=
  rfl

theorem replaceChars_cons (h : ∀ d ∈ cs.head?, d ≠ '*') (new : List Char) (c : Char) :
    Text.replaceChars ['\\', '*'] new 0 (c :: cs)
      = c :: Text.replaceChars ['\\', '*'] new 0 cs := by
  have hdrop : Text.dropStart? ['\\', '*'] (c :: cs) = none := by
    rw [Option.eq_none_iff_forall_ne_some]
    intro after hafter
    have heq := (List.cons.inj (Text.dropStart?_eq_some_iff.mp hafter)).2
    rw [heq] at h
    exact h '*' rfl rfl
  rw [Text.replaceChars, hdrop]

/-- In an escaped text no asterisk is without its backslash. -/
theorem head?_escapeChars (e : List Char) : ∀ d ∈ (Regex.escapeChars e).head?, d ≠ '*' := by
  cases e with
  | nil => simp [Regex.escapeChars]
  | cons c e =>
    rw [Regex.escapeChars, List.flatMap_cons]
    intro d hd
    split at hd
    · cases hd
      decide
    · rename_i hc
      cases hd
      rintro rfl
      exact hc rfl

theorem replaceChars_escapeChars (e : List Char) :
    Text.replaceChars ['\\', '*'] starPattern.toList 0 (Regex.escapeChars e) = e.flatMap piece := by
  induction e with
  | nil => rfl
  | cons c e ih =>
    have hcons : Regex.escapeChars (c :: e)
        = (if Regex.isMeta c then ['\\', c] else [c]) ++ Regex.escapeChars e := rfl
    rw [hcons, List.flatMap_cons, piece, ← ih]
    by_cases hstar : c = '*'
    · subst hstar
      rfl
    · rw [if_neg hstar]
      split
      · have hhead : ∀ d ∈ (c :: Regex.escapeChars e).head?, d ≠ '*' := by
          rintro d ⟨⟩
          exact hstar
        exact (replaceChars_cons hhead _ _).trans
          (congrArg _ (replaceChars_cons (head?_escapeChars e) _ _))
      · exact replaceChars_cons (head?_escapeChars e) _ _

theorem toList_pattern (expression : String) : (pattern expression).toList
    = '^' :: (expression.toList.flatMap piece ++ ['$']) := by
  have hold : "\\*".toList = ['\\', '*'] := rfl
  rw [pattern, Text.replace, Regex.escape]
  simp only [String.toList_append, String.toList_ofList, hold, replaceChars_escapeChars]
  rfl

/-! ### What the notation is read as -/

/-- The set of the characters of a segment. -/
def segmentClass : CharClass :=
  .complement ((['.', ':', '?', '*', '<', '>', '"', '\'', '/', '\\'] : List Char).foldl
    (fun s c => .union s (.single c)) .none)

/-- The regular expression for a character of an expression. -/
def part (c : Char) : Regex :=
  if c = '*' then .both (.one segmentClass) (.star (.one segmentClass)) else .one (.single c)

/-- The regular expression for characters of an expression, up to the end of a name. -/
def sequenceOf : List Char → Regex
  | [] => .both (.anchor .stop) .empty
  | c :: e => .both (part c) (sequenceOf e)

theorem has_segmentClass (c : Char) : segmentClass.has c = true ↔ IsSegmentChar c := by
  rw [segmentClass, CharClass.has, Bool.not_eq_true', ← Bool.not_eq_true, CharClass.has_foldl_union,
    IsSegmentChar, CharClass.none, CharClass.has]
  simp

theorem set?_segment (fuel : Nat) (rest : List Char) : Regex.set? {} (fuel + 12)
    ('^' :: (['.', ':', '?', '*', '<', '>', '"', '\'', '/'] ++ '\\' :: '\\' :: ']' :: rest))
      = some (segmentClass, rest) := by
  have hplain : ∀ c ∈ ['.', ':', '?', '*', '<', '>', '"', '\'', '/'],
      c ∉ ['\\', '&', '-', '~', ']', '['] := by simp
  have hchars := Regex.setBody?_chars (c := '\\') (by decide) (fuel + 2) ('\\' :: ']' :: rest)
    hplain .none
  rw [Regex.setBody?_range (t := .single '\\') (by decide) rfl, Regex.skip_plain] at hchars
  rw [Regex.set?]
  simp only [Regex.skip_plain]
  rw [List.cons_append, Regex.leading_of_plain (by decide) (by decide)]
  exact congrArg (Option.map fun x => (CharClass.complement x.1, x.2)) hchars

/-- No piece begins with a repetition. -/
theorem noRepetition_pieces (e : List Char) : Regex.NoRepetition (e.flatMap piece ++ ['$']) := by
  intro d hd
  cases e with
  | nil =>
    cases hd
    decide
  | cons c e =>
    rw [List.flatMap_cons, piece] at hd
    split at hd
    · rw [toList_starPattern] at hd
      cases hd
      decide
    · split at hd
      · cases hd
        decide
      · rename_i hc
        cases hd
        intro hmem
        simp only [List.mem_cons, List.not_mem_nil, or_false] at hmem
        rcases hmem with rfl | rfl | rfl | rfl
        all_goals exact hc rfl

/-- A piece in front of a sequence is read as the part for its character. -/
theorem sequence?_piece (hrest : Regex.NoRepetition rest) (fuel : Nat) (c : Char) :
    Regex.sequence? (fuel + 1) {} (piece c ++ rest)
      = (Regex.sequence? fuel {} rest).map fun x => (.both (part c) x.1, x.2) := by
  rw [piece, part]
  split
  · rw [toList_starPattern]
    have hatom : Regex.sequence?.atom? {} ('[' :: '^' :: (['.', ':', '?', '*', '<', '>', '"', '\'',
        '/'] ++ '\\' :: '\\' :: ']' :: '+' :: rest)) = some (.one segmentClass, '+' :: rest) :=
      (congrArg (Option.map fun x => (Regex.one x.1, x.2))
        (set?_segment (2 * rest.length + 18) ('+' :: rest)) :)
    exact Regex.sequence?_atom ⟨'[', _, rfl, by decide⟩ hatom (Regex.repeated?_plus hrest _ _) fuel
  · split
    · rename_i hc
      exact Regex.sequence?_atom ⟨'\\', _, rfl, by decide⟩ (Regex.atom?_of_isMeta hc rest)
        (Regex.repeated?_of_noRepetition hrest _ _) fuel
    · rename_i hc
      rw [Bool.not_eq_true] at hc
      refine Regex.sequence?_atom ⟨c, rest, rfl, ?_⟩ (Regex.atom?_of_not_isMeta hc rest)
        (Regex.repeated?_of_noRepetition hrest _ _) fuel
      intro hmem
      simp only [List.mem_cons, List.not_mem_nil, or_false] at hmem
      rcases hmem with rfl | rfl | rfl
      all_goals cases hc

theorem sequence?_pieces (e : List Char) (fuel : Nat) :
    Regex.sequence? (fuel + 2 + e.length) {} (e.flatMap piece ++ ['$'])
      = some (sequenceOf e, {}, []) := by
  induction e with
  | nil =>
    refine (Regex.sequence?_atom ⟨'$', [], rfl, by decide⟩ rfl
      (Regex.repeated?_of_noRepetition ?_ _ _) (fuel + 1)).trans rfl
    rintro c ⟨⟩
  | cons c e ih =>
    rw [List.flatMap_cons, List.append_assoc, List.length_cons, ← Nat.add_assoc,
      sequence?_piece (noRepetition_pieces e), ih]
    rfl

theorem length_le_pieces (e : List Char) : e.length ≤ (e.flatMap piece).length := by
  induction e with
  | nil => exact Nat.le_refl _
  | cons c e ih =>
    have hpos : 0 < (piece c).length := by
      rw [piece]
      split
      · decide
      · split <;> exact Nat.succ_pos _
    rw [List.flatMap_cons, List.length_append, List.length_cons]
    omega

/-- The notation for an expression is well-formed, and read as a part for each character. -/
theorem parse?_pattern (expression : String) : Regex.parse? (pattern expression)
    = some (.both (.anchor .start) (sequenceOf expression.toList)) := by
  have hlist := toList_pattern expression
  have hlength : (pattern expression).length = (expression.toList.flatMap piece).length + 2 := by
    rw [← String.length_toList, hlist]
    simp
  have hle := length_le_pieces expression.toList
  obtain ⟨fuel, hfuel⟩ : ∃ fuel, 3 * (pattern expression).length + 3
      = fuel + 2 + expression.toList.length + 2 :=
    ⟨3 * (pattern expression).length + 3 - 4 - expression.toList.length, by omega⟩
  have hsequence : Regex.sequence? (fuel + 2 + expression.toList.length + 1) {}
      ('^' :: (expression.toList.flatMap piece ++ ['$']))
        = some (.both (.anchor .start) (sequenceOf expression.toList), {}, []) := by
    rw [Regex.sequence?_atom ⟨'^', _, rfl, by decide⟩ rfl
      (Regex.repeated?_of_noRepetition (noRepetition_pieces _) _ _), sequence?_pieces]
    rfl
  rw [Regex.parse?, hfuel, hlist, Regex.alternatives?, hsequence]
  rfl

theorem regex_eq (expression : String) :
    regex expression = .ok (.both (.anchor .start) (sequenceOf expression.toList)) := by
  rw [regex, parse?_pattern]

/-! ### What it matches -/

/-- The parts match what is filled in, up to the end. -/
theorem exists_matches_iff : (∃ q, (sequenceOf e).Matches p q) ↔ Filled e p.after := by
  induction e generalizing p with
  | nil =>
    constructor
    · rintro ⟨q, h⟩
      cases h with
      | both h _ =>
        cases h with
        | anchor hstop =>
          rw [List.isEmpty_iff.mp hstop]
          exact .nil
    · intro h
      generalize hafter : p.after = cs at h
      cases h
      exact ⟨p, .both (.anchor (List.isEmpty_iff.mpr hafter)) (.empty p)⟩
  | cons c e ih =>
    rw [sequenceOf, part]
    split
    · rename_i hc
      subst hc
      constructor
      · rintro ⟨q, h⟩
        cases h with
        | both h hrest =>
          obtain ⟨put, hne, hput, hafter⟩ := Regex.exists_matches_plus_iff.mp ⟨_, h⟩
          rw [hafter]
          exact .star hne (fun c hc => (has_segmentClass c).mp (hput c hc)) (ih.mp ⟨q, hrest⟩)
      · intro h
        generalize hafter : p.after = cs at h
        cases h with
        | char hc => exact absurd rfl hc
        | star hne hput h =>
          obtain ⟨before, hplus⟩ := Regex.exists_matches_plus_iff.mpr
            ⟨_, hne, fun c hc => (has_segmentClass c).mpr (hput c hc), hafter⟩
          obtain ⟨q, hrest⟩ := (ih (p := ⟨before, _⟩)).mpr h
          exact ⟨q, .both hplus hrest⟩
    · rename_i hc
      constructor
      · rintro ⟨q, h⟩
        cases h with
        | both h hrest =>
          cases h with
          | one hd rest =>
            obtain rfl := (CharClass.has_single ..).mp hd
            exact .char hc (ih.mp ⟨q, hrest⟩)
      · intro h
        obtain ⟨before, after⟩ := p
        cases h with
        | star => exact absurd rfl hc
        | char _ h =>
          obtain ⟨q, hrest⟩ := (ih (p := ⟨some c, _⟩)).mpr h
          exact ⟨q, .both (.one ((CharClass.has_single ..).mpr rfl) _) hrest⟩

/-- The names that fit an expression are those that are meant. -/
theorem fits_iff (expression name : String) :
    fits expression name = true ↔ Filled expression.toList name.toList := by
  rw [fits, regex_eq]
  simp only [Regex.occursIn_iff]
  constructor
  · rintro ⟨p, q, hp, h⟩
    cases h with
    | both h hrest =>
      cases h with
      | anchor hstart =>
        rw [hp.eq_of_start (Option.isNone_iff_eq_none.mp hstart)] at hrest
        exact exists_matches_iff.mp ⟨q, hrest⟩
  · intro h
    obtain ⟨q, hrest⟩ := (exists_matches_iff (p := ⟨none, name.toList⟩)).mpr h
    exact ⟨_, q, .refl _, .both (.anchor rfl) hrest⟩

/-! ### The names in storage -/

variable {types : EntityTypes} {t : EntityType} {expression name : String} {w : Workspace}
  {m : Snapshot}

/-- Making the regular expression does not fail. -/
theorem names_eq (types : EntityTypes) (expression : String) : names types expression =
    if !isWildcard expression then return [expression] else
    match types.ownerOf? expression with
    | none => throw (unowned expression)
    | some t => return (← ConfigM.list none (t.stem ++ ".")).filter (fits expression) := by
  have hfits : fits expression
      = (Regex.both (.anchor .start) (sequenceOf expression.toList)).occursIn := by
    funext name
    rw [fits, regex_eq]
  rw [names, hfits, regex_eq]
  rfl

/-- What an expression of a type stands for starts with the stem of the type and a dot. -/
theorem hasStart_of_filled (howns : t.owns expression = true) (hstem : '*' ∉ t.stem.toList)
    (h : Filled expression.toList name.toList) : Text.hasStart (t.stem ++ ".") name = true := by
  obtain ⟨c, rest, hexpression⟩ := EntityType.owns_iff.mp howns
  have hsplit : expression.toList = (t.stem ++ ".").toList ++ c :: rest := by
    rw [hexpression, String.toList_append, List.append_assoc]
    rfl
  have hno : '*' ∉ (t.stem ++ ".").toList := by
    rw [String.toList_append, List.mem_append, not_or]
    exact ⟨hstem, by decide⟩
  rw [hsplit] at h
  obtain ⟨after, hname, -⟩ := h.exists_of_append hno
  exact Option.isSome_iff_exists.mpr ⟨after, Text.dropStart?_eq_some_iff.mpr hname⟩

theorem outcome_names_of_ownerOf? (ht : types.ownerOf? expression = some t)
    (hwild : isWildcard expression = true) (hm : w.active.Shows m) :
    outcome (names types expression) w = (.ok
      (((m.collection w.active.collectionName).names.filter (Text.hasStart (t.stem ++ "."))).filter
        (fits expression)), w) := by
  have hlist : outcome (ConfigM.list none (t.stem ++ ".")) w
      = (.ok ((m.collection w.active.collectionName).names.filter
        (Text.hasStart (t.stem ++ "."))), w) := by
    rw [ConfigM.list, ConfigM.outcome_ask, Storage.list, hm.listNames_none]
    rfl
  rw [names_eq, hwild, ht]
  exact outcome_bind_ok hlist

/-- **The names that a wildcard stands for.** With configuration in memory and no asterisk in the
stems of the types, finding them fails if no type owns the wildcard, and only then. Otherwise they
are the names in the collection which are the wildcard with something filled in for each of its
asterisks. They come in ascending order and have as many dots as the wildcard. -/
theorem found_of_wildcard (hwild : isWildcard expression = true)
    (hstems : ∀ t ∈ types.values, '*' ∉ t.stem.toList) (hm : w.active.Shows m) :
    ((∃ e, (outcome (names types expression) w).1 = .error e) ↔
      ∀ t ∈ types.values, t.owns expression = false) ∧
    ((∃ t ∈ types.values, t.owns expression = true) →
      ∃ found, outcome (names types expression) w = (.ok found, w) ∧
        found.Pairwise (· < ·) ∧
        (∀ name, name ∈ found ↔ (m.object? w.active.collectionName name).isSome = true ∧
          Filled expression.toList name.toList) ∧
        ∀ name ∈ found, name.toList.count '.' = expression.toList.count '.') := by
  cases ht : types.ownerOf? expression with
  | none =>
    have hnone := EntityTypes.ownerOf?_eq_none_iff.mp ht
    refine ⟨iff_of_true ?_ hnone, ?_⟩
    · rw [names_eq, hwild, ht]
      exact ⟨_, rfl⟩
    · rintro ⟨t, hmem, howns⟩
      rw [hnone t hmem] at howns
      cases howns
  | some t =>
    obtain ⟨hmem, howns⟩ := EntityTypes.mem_of_ownerOf? ht
    have hfound := outcome_names_of_ownerOf? ht hwild hm
    refine ⟨iff_of_false ?_ fun h => ?_, fun _ => ⟨_, hfound, ?_, fun name => ?_, ?_⟩⟩
    · rintro ⟨e, he⟩
      rw [hfound] at he
      cases he
    · rw [h t hmem] at howns
      cases howns
    · exact ((m.collection w.active.collectionName).ascending.filter _).filter _
    · rw [List.mem_filter, List.mem_filter, NameMap.mem_names_iff, fits_iff, and_assoc]
      exact and_congr_right fun _ =>
        and_iff_right_of_imp (hasStart_of_filled howns (hstems t hmem))
    · intro name hname
      exact ((fits_iff ..).mp (List.mem_filter.mp hname).2).count_dot

/-- A type of roles. -/
def roleTypes : EntityTypes :=
  EntityTypes.register NameMap.empty ⟨"user_role", "user.role", "user"⟩

/-- A site where translations are changed, of which one is for a role and one for a part of it. -/
def siteOfRoles : Workspace where
  files := {}
  active := .within "language.de" (.memory (Snapshot.ofList
    [(defaultCollection, "user.role.x", Mapping.empty),
      ("language.de", "user.role.y", Mapping.empty),
      ("language.de", "user.role.y.part", Mapping.empty)]))

/-- Neither the part nor what is in another collection is found. -/
theorem found_in_siteOfRoles : isWildcard "user.role.*" = true ∧
    (∀ t ∈ roleTypes.values, '*' ∉ t.stem.toList) ∧
    ∃ found, outcome (names roleTypes "user.role.*") siteOfRoles = (.ok found, siteOfRoles) ∧
      "user.role.y" ∈ found ∧ "user.role.y.part" ∉ found ∧ "user.role.x" ∉ found := by
  have hwild : isWildcard "user.role.*" = true := by decide +kernel
  have hstems : ∀ t ∈ roleTypes.values, '*' ∉ t.stem.toList := by decide +kernel
  have hshows : siteOfRoles.active.Shows _ := .within _ (.memory _)
  obtain ⟨-, hfound⟩ := found_of_wildcard hwild hstems hshows
  obtain ⟨found, houtcome, -, hmem, hdots⟩ :=
    hfound ⟨_, List.mem_singleton_self _, by decide +kernel⟩
  refine ⟨hwild, hstems, found, houtcome, (hmem _).mpr ⟨by decide +kernel, ?_⟩, fun h => ?_,
    fun h => ?_⟩
  · rw [← fits_iff]
    decide +kernel
  · exact absurd (hdots _ h) (by decide +kernel)
  · exact absurd ((hmem _).mp h).1 (by decide +kernel)

end Expression

end Cookbook
