import Cookbook.Json.Parser
import Cookbook.Proofs.Digits
import Mathlib.Data.List.Basic

/-!
# JSON is read as it was written

A value on several lines is read as the value again. A reader is always in the middle of a text, so
this is stated with what comes after the value, which has to end a number: the text ends there, or a
comma or a line break follows.

A reader that has fuel for twice the characters it is to take has enough, since each value and each
item takes one step and at least one character of its own.

## Main definitions

* `Json.Begins`, `Json.Ends`: a text starts with a token; what comes after a value ends it.
* `Json.Readable`: a value is read up to its end.

## Main results

* `Json.stringChars?_escape`, `Json.number?_toDigits`: strings and numbers are read as written.
* `Json.readable_array`, `Json.readable_object`: values are read if what is in them is.
* `Json.parse?_pretty`: a text is read as the value it was written for.
-/

namespace Cookbook

namespace Json

/-! ### Strings -/

theorem hexValue?_control {n : Nat} (h : n < 32) :
    Yaml.hexValue? ['0', '0', hexDigit (n / 16), hexDigit (n % 16)] = some n := by
  have hall : ∀ n < 32,
      Yaml.hexValue? ['0', '0', hexDigit (n / 16), hexDigit (n % 16)] = some n := by decide
  exact hall n h

/-- A character is read as it was written. -/
theorem stringChars?_escape (fuel : Nat) (c : Char) (cs : List Char) :
    stringChars? (fuel + 1) (escape c ++ cs)
      = (stringChars? fuel cs).map fun p => (c :: p.1, p.2) := by
  have hbind : ∀ c : Char, (stringChars? fuel cs).bind (fun p => some (c :: p.1, p.2))
      = (stringChars? fuel cs).map fun p => (c :: p.1, p.2) := by
    intro c
    cases stringChars? fuel cs <;> rfl
  rw [escape]
  -- the characters with an escape of their own
  repeat (split; · subst_vars; exact hbind _)
  split
  · rename_i hcontrol
    have hunit : unit? ('0' :: '0' :: hexDigit (c.toNat / 16) :: hexDigit (c.toNat % 16) :: cs)
        = some (c.toNat, cs) := by
      rw [unit?, hexValue?_control hcontrol]
      rfl
    have hescaped : escaped? ('u' :: '0' :: '0' :: hexDigit (c.toNat / 16)
        :: hexDigit (c.toNat % 16) :: cs) = some (c, cs) := by
      rw [escaped?, hunit]
      simp only [Option.bind_eq_bind, Option.bind_some]
      rw [if_neg (by omega), if_neg (by omega), Char.ofNat_toNat]
    simp only [List.cons_append, List.nil_append]
    rw [stringChars?, hescaped]
    exact hbind c
  · rename_i hquote hbackslash _ _ _ _ _ hcontrol
    rw [List.singleton_append, stringChars?.eq_def]
    split
    · contradiction
    · contradiction
    · rename_i heq
      cases heq
      exact absurd rfl hquote
    · rename_i heq
      cases heq
      exact absurd rfl hbackslash
    · rename_i hfuel heq
      cases hfuel
      cases heq
      simp only [if_neg hcontrol]
      exact hbind c

/-- A string is read up to its closing quote. -/
theorem stringChars?_flatMap_escape {cs : List Char} {fuel : Nat} (h : cs.length < fuel)
    (rest : List Char) :
    stringChars? fuel (cs.flatMap escape ++ '"' :: rest) = some (cs, rest) := by
  induction cs generalizing fuel with
  | nil =>
    obtain ⟨fuel, rfl⟩ := Nat.exists_eq_add_of_lt h
    rfl
  | cons c cs ih =>
    obtain ⟨fuel, rfl⟩ := Nat.exists_eq_add_of_lt h
    rw [List.flatMap_cons, List.append_assoc, List.length_cons, stringChars?_escape,
      ih (Nat.lt_of_lt_of_le (Nat.lt_succ_self cs.length) (Nat.le_add_right _ fuel))]
    rfl

theorem length_le_length_flatMap_escape (cs : List Char) :
    cs.length ≤ (cs.flatMap escape).length := by
  induction cs with
  | nil => exact Nat.le_refl _
  | cons c cs ih =>
    have hescape : 1 ≤ (escape c).length := by
      rw [escape]
      repeat (split; · simp)
      simp
    rw [List.flatMap_cons, List.length_append, List.length_cons]
    omega

theorem toList_quote (s : String) : (quote s).toList = '"' :: s.toList.flatMap escape ++ ['"'] := by
  simp [quote]

/-- A quoted string, after its opening quote. -/
theorem stringChars?_quote (s : String) (rest : List Char) :
    stringChars? ((s.toList.flatMap escape ++ '"' :: rest).length + 1)
      (s.toList.flatMap escape ++ '"' :: rest) = some (s.toList, rest) := by
  have hlength := length_le_length_flatMap_escape s.toList
  exact stringChars?_flatMap_escape (by rw [List.length_append]; omega) rest

/-! ### Numbers -/

/-- What comes after a value: nothing, a comma or a line break. -/
def Ends (rest : List Char) : Prop := ∀ c ∈ rest.head?, c = ',' ∨ c = '\n'

theorem ends_nil : Ends [] := by simp [Ends]

theorem ends_comma (cs : List Char) : Ends (',' :: cs) := by simp [Ends]

theorem ends_newLine (cs : List Char) : Ends ('\n' :: cs) := by simp [Ends]

variable {rest pad cs : List Char} {n level fuel : Nat}

theorem digits?_append {ds : List Char} (hne : ds ≠ []) (hds : ∀ c ∈ ds, c.isDigit = true)
    (hrest : Ends rest) : digits? (ds ++ rest) = some (ds, rest) := by
  have htake : rest.takeWhile Char.isDigit = [] ∧ rest.dropWhile Char.isDigit = rest := by
    cases rest with
    | nil => exact ⟨rfl, rfl⟩
    | cons c cs =>
      have hc : c.isDigit = false := by
        rcases hrest c rfl with rfl | rfl <;> decide
      simp [hc]
  rw [digits?, List.takeWhile_append_of_pos hds, List.dropWhile_append_of_pos hds, htake.1,
    htake.2, List.append_nil]
  simp [hne]

theorem whole?_toDigits (hrest : Ends rest) :
    whole? (Nat.toDigits 10 n ++ rest) = some (Nat.toDigits 10 n, rest) := by
  have hdigits := digits?_append (Nat.toDigits_ne_nil (n := n) (b := 10))
    (fun _ => Text.isDigit_of_mem_toDigits) hrest
  rw [whole?.eq_def]
  split
  · rename_i c more heq
    by_cases hn : n = 0
    · subst hn
      obtain rfl : rest = c :: more := by simpa using heq
      have hc : c.isDigit = false := by
        rcases hrest c rfl with rfl | rfl <;> decide
      rw [hc]
      rfl
    · have hhead := Text.head?_toDigits (Nat.pos_of_ne_zero hn)
      obtain ⟨d, ds, hds, -⟩ := Text.exists_toDigits_eq_cons n
      rw [hds, List.cons_append] at heq
      rw [hds] at hhead
      exact absurd (congrArg some (List.cons.inj heq).1) hhead
  · exact hdigits

/-- A natural number is read as it was written. -/
theorem number?_toDigits (hrest : Ends rest) :
    number? (Nat.toDigits 10 n ++ rest) = some (.natural n, rest) := by
  obtain ⟨d, ds, hds, hd⟩ := Text.exists_toDigits_eq_cons n
  have hfraction : fraction? rest = some ([], rest) := by
    rw [fraction?.eq_def]
    split
    · rcases hrest '.' rfl with h | h <;> cases h
    · rfl
  have hexponent : exponent? rest = some ([], rest) := by
    cases rest with
    | nil => rfl
    | cons c cs =>
      rcases hrest c rfl with rfl | rfl <;> rfl
  unfold number?
  split
  rename_i heq
  split at heq
  · rename_i hminus
    rw [hds, List.cons_append] at hminus
    rw [(List.cons.inj hminus).1] at hd
    cases hd
  · cases heq
    simpa [whole?_toDigits hrest, hfraction, hexponent] using Text.foldl_toDigits n

/-! ### Layout -/

theorem isSpace_of_isDigit {c : Char} (h : c.isDigit = true) : isSpace c = false := by
  cases hspace : isSpace c with
  | false => rfl
  | true =>
    simp only [isSpace, Bool.or_eq_true, beq_iff_eq] at hspace
    rcases hspace with ((rfl | rfl) | rfl) | rfl <;> cases h

theorem skipSpace_append (hpad : ∀ c ∈ pad, isSpace c = true) (cs : List Char) :
    skipSpace (pad ++ cs) = skipSpace cs := by
  rw [skipSpace, List.dropWhile_append_of_pos hpad]
  rfl

theorem toList_newLine (level : Nat) :
    (newLine level).toList = '\n' :: List.replicate (2 * level) ' ' := by
  simp [newLine]

theorem isSpace_of_mem_newLine {c : Char} (h : c ∈ (newLine level).toList) : isSpace c = true := by
  rw [toList_newLine, List.mem_cons, List.mem_replicate] at h
  rcases h with rfl | ⟨-, rfl⟩ <;> rfl

/-- Items between brackets from the first of them on, with the line of the closing bracket. -/
def body (level : Nat) : List String → List Char
  | [] => []
  | [s] => s.toList ++ (newLine level).toList
  | s :: t :: rest => s.toList ++ ',' :: ((newLine (level + 1)).toList ++ body level (t :: rest))

theorem toList_block (left right : String) (level : Nat) (s : String) (items : List String) :
    (block left right level (s :: items)).toList
      = left.toList ++ (newLine (level + 1)).toList ++ body level (s :: items) ++ right.toList := by
  have hbody : (",".intercalate ((s :: items).map (newLine (level + 1) ++ ·))).toList
      ++ (newLine level).toList = (newLine (level + 1)).toList ++ body level (s :: items) := by
    induction items generalizing s with
    | nil => simp [body]
    | cons t items ih =>
      have hrest := ih t
      rw [List.map_cons] at hrest ⊢
      rw [List.map_cons, String.intercalate_cons_cons, body, ← hrest]
      simp
  rw [block, List.isEmpty_cons, if_neg Bool.false_ne_true]
  simp only [String.toList_append, List.append_assoc] at hbody ⊢
  rw [← List.append_assoc _ (newLine level).toList, hbody]
  simp

theorem exists_toList_block (left right : String) (level : Nat) (items : List String) :
    ∃ cs, (block left right level items).toList = left.toList ++ cs := by
  cases items with
  | nil => exact ⟨_, String.toList_append⟩
  | cons s items => exact ⟨_, by rw [toList_block, List.append_assoc, List.append_assoc]⟩

theorem ends_newLine_append (level : Nat) (cs : List Char) :
    Ends ((newLine level).toList ++ cs) := by
  rw [toList_newLine]
  exact ends_newLine _

theorem skipSpace_newLine (level : Nat) (cs : List Char) :
    skipSpace ((newLine level).toList ++ cs) = skipSpace cs :=
  skipSpace_append (fun _ h => isSpace_of_mem_newLine h) cs

/-- Text that starts with a token. -/
def Begins (cs : List Char) : Prop :=
  ∃ c more, cs = c :: more ∧ isSpace c = false ∧ c ≠ ']' ∧ c ≠ '\x7d'

theorem Begins.append (h : Begins cs) (more : List Char) : Begins (cs ++ more) := by
  obtain ⟨c, cs, rfl, hc⟩ := h
  exact ⟨c, cs ++ more, rfl, hc⟩

theorem Begins.skipSpace_eq (h : Begins cs) : skipSpace cs = cs := by
  obtain ⟨c, cs, rfl, hc, -⟩ := h
  rw [skipSpace, List.dropWhile_cons_of_neg (by simp [hc])]

theorem Begins.length_pos (h : Begins cs) : 0 < cs.length := by
  obtain ⟨c, cs, rfl, -⟩ := h
  exact Nat.succ_pos _

theorem begins_of_isDigit {c : Char} (h : c.isDigit = true) (cs : List Char) :
    Begins (c :: cs) := by
  refine ⟨c, cs, rfl, isSpace_of_isDigit h, ?_, ?_⟩ <;>
    · rintro rfl
      cases h

theorem begins_quote (s : String) : Begins (quote s).toList := by
  rw [toList_quote]
  exact ⟨_, _, rfl, rfl, by decide, by decide⟩

theorem begins_body {s : String} (h : Begins s.toList) (level : Nat) (items : List String) :
    Begins (body level (s :: items)) := by
  cases items <;> exact h.append _

/-! ### Values -/

/-- What starts with a digit is a number. -/
theorem value?_digit {c : Char} {more : List Char} (h : skipSpace cs = c :: more)
    (hc : c.isDigit = true) : value? (fuel + 1) cs = number? (c :: more) := by
  rw [value?, h]
  split
  all_goals first | rfl | skip
  all_goals
    rename_i heq
    rw [(List.cons.inj heq).1] at hc
    cases hc

theorem value?_quote {s : String} (h : skipSpace cs = (quote s).toList ++ rest) :
    value? (fuel + 1) cs = some (.string s, rest) := by
  rw [toList_quote, List.cons_append, List.cons_append, List.append_assoc,
    List.singleton_append] at h
  rw [value?, h]
  simp only [stringChars?_quote, Option.bind_eq_bind, Option.bind_some, String.ofList_toList]
  rfl

/-- An array that does not end at once has items. -/
theorem value?_bracket {more text : List Char} (h : skipSpace cs = '[' :: more)
    (hmore : skipSpace more = text) (htext : Begins text) :
    value? (fuel + 1) cs = (items? fuel text).map fun p => (.array p.1, p.2) := by
  obtain ⟨c, text, rfl, -, hc, -⟩ := htext
  rw [value?, h]
  simp only [hmore]
  split
  · rename_i heq
    exact absurd (List.cons.inj heq).1 hc
  · cases items? fuel (c :: text) <;> rfl

/-- An object that does not end at once has fields. -/
theorem value?_brace {more text : List Char} (h : skipSpace cs = '\x7b' :: more)
    (hmore : skipSpace more = text) (htext : Begins text) :
    value? (fuel + 1) cs = (fields? fuel text).map fun p => (.object p.1, p.2) := by
  obtain ⟨c, text, rfl, -, -, hc⟩ := htext
  rw [value?, h]
  simp only [hmore]
  split
  · rename_i heq
    exact absurd (List.cons.inj heq).1 hc
  · cases fields? fuel (c :: text) <;> rfl

section

variable {j : Json} {k : String} {text more : List Char}

theorem items?_last (h : value? fuel cs = some (j, rest)) (hrest : skipSpace rest = ']' :: more) :
    items? (fuel + 1) cs = some ([j], more) := by
  rw [items?, h]
  simp only [Option.bind_eq_bind, Option.bind_some, hrest]
  rfl

theorem items?_comma (h : value? fuel cs = some (j, ',' :: rest)) :
    items? (fuel + 1) cs = (items? fuel rest).map fun p => (j :: p.1, p.2) := by
  have hcomma : skipSpace (',' :: rest) = ',' :: rest := rfl
  rw [items?, h]
  simp only [Option.bind_eq_bind, Option.bind_some, hcomma]
  cases items? fuel rest <;> rfl

/-- The characters of a field up to the start of its value. -/
theorem toList_field (k : String) (text : List Char) : (quote k ++ ": ").toList ++ text
    = '"' :: (k.toList.flatMap escape ++ '"' :: ':' :: ' ' :: text) := by
  simp [toList_quote]

theorem fields?_last (h : skipSpace cs = (quote k ++ ": ").toList ++ text)
    (hvalue : value? fuel (' ' :: text) = some (j, rest))
    (hrest : skipSpace rest = '\x7d' :: more) :
    fields? (fuel + 1) cs = some ([(k, j)], more) := by
  have hcolon : skipSpace (':' :: ' ' :: text) = ':' :: ' ' :: text := rfl
  rw [fields?, h, toList_field]
  simp only [stringChars?_quote, Option.bind_eq_bind, Option.bind_some, hcolon, hvalue, hrest,
    String.ofList_toList]
  rfl

theorem fields?_comma (h : skipSpace cs = (quote k ++ ": ").toList ++ text)
    (hvalue : value? fuel (' ' :: text) = some (j, ',' :: rest)) :
    fields? (fuel + 1) cs = (fields? fuel rest).map fun p => ((k, j) :: p.1, p.2) := by
  have hcolon : skipSpace (':' :: ' ' :: text) = ':' :: ' ' :: text := rfl
  have hcomma : skipSpace (',' :: rest) = ',' :: rest := rfl
  rw [fields?, h, toList_field]
  simp only [stringChars?_quote, Option.bind_eq_bind, Option.bind_some, hcolon, hvalue, hcomma,
    String.ofList_toList]
  cases fields? fuel rest <;> rfl

end

/-- A value that is read up to its end, whatever the level it is written at. -/
structure Readable (j : Json) : Prop where
  begins : ∀ level, Begins (j.pretty level).toList
  value? : ∀ {level fuel : Nat} {cs rest : List Char}, 2 * (j.pretty level).toList.length ≤ fuel →
    Ends rest → skipSpace cs = (j.pretty level).toList ++ rest →
    Json.value? fuel cs = some (j, rest)

/-- A reader of a value that begins has fuel for a step. -/
theorem Readable.of_succ {j : Json} (hbegins : ∀ level, Begins (j.pretty level).toList)
    (h : ∀ {level fuel : Nat} {cs rest : List Char},
      2 * (j.pretty level).toList.length ≤ fuel + 1 → Ends rest →
      skipSpace cs = (j.pretty level).toList ++ rest →
      Json.value? (fuel + 1) cs = some (j, rest)) : Readable j := by
  refine ⟨hbegins, fun {level fuel cs rest} hfuel hrest hcs => ?_⟩
  have hpos := (hbegins level).length_pos
  obtain ⟨fuel, rfl⟩ : ∃ n, fuel = n + 1 := ⟨fuel - 1, by omega⟩
  exact h hfuel hrest hcs

theorem readable_null : Readable null := by
  refine .of_succ (fun _ => ⟨'n', ['u', 'l', 'l'], by simp [pretty], rfl, by decide, by decide⟩) ?_
  intro level fuel cs rest _ _ h
  rw [Json.value?, h]
  simp [pretty]

theorem readable_string (s : String) : Readable (string s) :=
  .of_succ (fun _ => begins_quote s) fun _ _ h => value?_quote h

theorem readable_natural (n : Nat) : Readable (natural n) := by
  obtain ⟨d, ds, hds, hd⟩ := Text.exists_toDigits_eq_cons n
  have htext : ∀ level, ((natural n).pretty level).toList = d :: ds := by simp [pretty, hds]
  refine .of_succ (fun level => ?_) ?_
  · rw [htext]
    exact begins_of_isDigit hd ds
  · intro level fuel cs rest _ hrest h
    rw [htext, List.cons_append] at h
    rw [value?_digit h hd, ← List.cons_append, ← hds, number?_toDigits hrest]

/-- Items are read up to the closing bracket. -/
theorem items?_body {j : Json} {items : List Json} (hitems : ∀ i ∈ j :: items, Readable i)
    (hfuel : 2 * (body level (prettyItems (level + 1) (j :: items))).length ≤ fuel)
    (h : skipSpace cs = body level (prettyItems (level + 1) (j :: items)) ++ ']' :: rest) :
    items? fuel cs = some (j :: items, rest) := by
  induction items generalizing j fuel cs with
  | nil =>
    have hj := hitems j List.mem_cons_self
    rw [prettyItems, prettyItems, body] at h hfuel
    rw [List.append_assoc] at h
    rw [List.length_append, toList_newLine, List.length_cons] at hfuel
    obtain ⟨fuel, rfl⟩ : ∃ n, fuel = n + 1 := ⟨fuel - 1, by omega⟩
    exact items?_last (hj.value? (by omega) (ends_newLine_append _ _) h) (skipSpace_newLine ..)
  | cons j' items ih =>
    obtain ⟨hj, hitems⟩ := List.forall_mem_cons.mp hitems
    have hbody := (begins_body ((hitems j' List.mem_cons_self).begins (level + 1)) level
      (prettyItems (level + 1) items)).append (']' :: rest)
    rw [prettyItems, prettyItems, body] at h hfuel
    rw [List.append_assoc, List.cons_append, List.append_assoc] at h
    simp only [List.length_append, toList_newLine, List.length_cons] at hfuel
    obtain ⟨fuel, rfl⟩ : ∃ n, fuel = n + 1 := ⟨fuel - 1, by omega⟩
    rw [items?_comma (hj.value? (by omega) (ends_comma _) h),
      ih hitems (by rw [prettyItems]; omega)
        ((skipSpace_newLine (level + 1) _).trans hbody.skipSpace_eq)]
    rfl

theorem readable_array {items : List Json} (h : ∀ j ∈ items, Readable j) :
    Readable (array items) := by
  refine .of_succ (fun level => ?_) ?_
  · obtain ⟨cs, hcs⟩ := exists_toList_block "[" "]" level (prettyItems (level + 1) items)
    exact ⟨'[', cs, hcs, rfl, by decide, by decide⟩
  · intro level fuel cs rest hfuel _ hcs
    cases items with
    | nil =>
      have htext : ((array []).pretty level).toList = ['[', ']'] := by
        simp [pretty, prettyItems, block]
      rw [Json.value?, hcs, htext]
      rfl
    | cons j items =>
      have hbody := (begins_body ((h j List.mem_cons_self).begins (level + 1)) level
        (prettyItems (level + 1) items)).append (']' :: rest)
      rw [pretty, prettyItems, toList_block] at hcs hfuel
      simp only [List.length_append, toList_newLine, List.length_cons] at hfuel
      rw [List.append_assoc, List.append_assoc, List.append_assoc] at hcs
      rw [value?_bracket hcs ((skipSpace_newLine ..).trans hbody.skipSpace_eq) hbody,
        items?_body h (by rw [prettyItems]; omega) hbody.skipSpace_eq]
      rfl

/-- The characters of a field that goes on. -/
theorem toList_field_append (k : String) (j : Json) (level : Nat) (cs : List Char) :
    (quote k ++ ": " ++ j.pretty level).toList ++ cs
      = (quote k ++ ": ").toList ++ ((j.pretty level).toList ++ cs) := by
  rw [String.toList_append, List.append_assoc]

theorem begins_field (k : String) (j : Json) (level : Nat) :
    Begins (quote k ++ ": " ++ j.pretty level).toList := by
  rw [String.toList_append, String.toList_append]
  exact ((begins_quote k).append _).append _

/-- Fields are read up to the closing brace. -/
theorem fields?_body {k : String} {j : Json} {fields : List (String × Json)}
    (hfields : ∀ f ∈ (k, j) :: fields, Readable f.2)
    (hfuel : 2 * (body level (prettyFields (level + 1) ((k, j) :: fields))).length ≤ fuel)
    (h : skipSpace cs
      = body level (prettyFields (level + 1) ((k, j) :: fields)) ++ '\x7d' :: rest) :
    fields? fuel cs = some ((k, j) :: fields, rest) := by
  have hj : Readable j := hfields (k, j) List.mem_cons_self
  have hspace : ∀ cs, skipSpace (' ' :: ((j.pretty (level + 1)).toList ++ cs))
      = (j.pretty (level + 1)).toList ++ cs := fun cs => ((hj.begins _).append cs).skipSpace_eq
  induction fields generalizing k j fuel cs with
  | nil =>
    rw [prettyFields, prettyFields, body] at h hfuel
    rw [List.append_assoc, toList_field_append] at h
    rw [String.toList_append, List.length_append, List.length_append, toList_newLine,
      List.length_cons] at hfuel
    obtain ⟨fuel, rfl⟩ : ∃ n, fuel = n + 1 := ⟨fuel - 1, by omega⟩
    exact fields?_last h (hj.value? (by omega) (ends_newLine_append _ _) (hspace _))
      (skipSpace_newLine ..)
  | cons f fields ih =>
    obtain ⟨k', j'⟩ := f
    obtain ⟨-, hfields⟩ := List.forall_mem_cons.mp hfields
    have hj' : Readable j' := hfields (k', j') List.mem_cons_self
    have hbody := (begins_body (begins_field k' j' (level + 1)) level
      (prettyFields (level + 1) fields)).append ('\x7d' :: rest)
    rw [prettyFields, prettyFields, body] at h hfuel
    rw [List.append_assoc, toList_field_append, List.cons_append, List.append_assoc] at h
    rw [String.toList_append] at hfuel
    simp only [List.length_append, toList_newLine, List.length_cons] at hfuel
    obtain ⟨fuel, rfl⟩ : ∃ n, fuel = n + 1 := ⟨fuel - 1, by omega⟩
    rw [fields?_comma h (hj.value? (by omega) (ends_comma _) (hspace _)),
      ih hfields (by rw [prettyFields]; omega)
        ((skipSpace_newLine (level + 1) _).trans hbody.skipSpace_eq) hj'
        fun cs => ((hj'.begins _).append cs).skipSpace_eq]
    rfl

theorem readable_object {fields : List (String × Json)} (h : ∀ f ∈ fields, Readable f.2) :
    Readable (object fields) := by
  refine .of_succ (fun level => ?_) ?_
  · obtain ⟨cs, hcs⟩ := exists_toList_block "\x7b" "\x7d" level (prettyFields (level + 1) fields)
    exact ⟨'\x7b', cs, hcs, rfl, by decide, by decide⟩
  · intro level fuel cs rest hfuel _ hcs
    cases fields with
    | nil =>
      have htext : ((object []).pretty level).toList = ['\x7b', '\x7d'] := by
        simp [pretty, prettyFields, block]
      rw [Json.value?, hcs, htext]
      rfl
    | cons f fields =>
      obtain ⟨k, j⟩ := f
      have hbody := (begins_body (begins_field k j (level + 1)) level
        (prettyFields (level + 1) fields)).append ('\x7d' :: rest)
      rw [pretty, prettyFields, toList_block] at hcs hfuel
      simp only [List.length_append, toList_newLine, List.length_cons] at hfuel
      rw [List.append_assoc, List.append_assoc, List.append_assoc] at hcs
      rw [value?_brace hcs ((skipSpace_newLine ..).trans hbody.skipSpace_eq) hbody,
        fields?_body h (by rw [prettyFields]; omega) hbody.skipSpace_eq]
      rfl

/-- A text is read as the value it was written for. -/
theorem parse?_pretty {j : Json} (h : j.Readable) (level : Nat) :
    parse? (j.pretty level) = some j := by
  have hfuel : 2 * (j.pretty level).toList.length ≤ 2 * (j.pretty level).length + 2 := by
    rw [String.length_toList]
    omega
  have hvalue := h.value? hfuel ends_nil ((h.begins level).append []).skipSpace_eq
  rw [List.append_nil] at hvalue
  rw [parse?, hvalue]
  rfl

end Json

end Cookbook
