import Cookbook.Proofs.Digits
import Cookbook.Text.Blank
import Cookbook.Yaml.Printer

/-!
# Marks in printed text

A writer only adds to its text: nothing that is there is taken back, whatever is written next. So
what tells a kind of value stays: the exclamation mark of a tag, the dash of an item, the colon of an
entry, the brackets of what is empty. A number has a digit, a sign or a point. Of all values that
are no strings, only null and the two booleans are printed as a word.

## Main definitions

* `Yaml.Writer.Extends`: the text of one writer goes on from that of another.
* `Text.HasMark`: a text has a character that is no small letter and no white space.

## Main results

* `Yaml.extends_putNode`: writing a node adds to the text.
* `Yaml.hasMark_of_print`: which printed text has a mark.
* `Text.HasMark.trim`: trimming keeps a mark.
-/

namespace Cookbook

namespace Yaml

namespace Writer

variable {w w₁ w₂ w₃ : Writer}

/-- The text of a writer goes on from that of an earlier one. -/
def Extends (later earlier : Writer) : Prop := ∃ s, later.text = earlier.text ++ s

theorem Extends.refl (w : Writer) : w.Extends w := ⟨"", by simp⟩

theorem Extends.trans (h : w₂.Extends w₁) (h' : w₃.Extends w₂) : w₃.Extends w₁ := by
  obtain ⟨s, hs⟩ := h
  obtain ⟨s', hs'⟩ := h'
  exact ⟨s ++ s', by rw [hs', hs, String.append_assoc]⟩

/-- What the writer knows beside its text does not matter. -/
theorem Extends.of_text (h : w₂.Extends w₁) (htext : w₃.text = w₂.text) : w₃.Extends w₁ := by
  obtain ⟨s, hs⟩ := h
  exact ⟨s, htext.trans hs⟩

/-! ### Steps of a writer -/

theorem extends_put (w : Writer) (s : String) : (w.put s).Extends w := ⟨s, rfl⟩

theorem extends_putBreak (w : Writer) (c : Char) : (w.putBreak c).Extends w :=
  ⟨c.toString, by simp [putBreak]⟩

theorem extends_newline (w : Writer) : w.newline.Extends w :=
  ⟨"\n", String.toList_inj.mp (by simp [newline])⟩

theorem extends_indentTo (w : Writer) (column : Nat) : (w.indentTo column).Extends w := by
  rw [indentTo]
  refine .of_text (.trans ?_ (extends_put _ _)) rfl
  split
  · exact w.extends_newline
  · exact .refl w

theorem extends_indicator (w : Writer) (s : String) (needsSpace spaced indented : Bool) :
    (w.indicator s needsSpace spaced indented).Extends w := by
  rw [indicator]
  refine .of_text (.trans ?_ (extends_put _ s)) rfl
  split
  · exact w.extends_put " "
  · exact .refl w

theorem extends_putWord (w : Writer) (s : String) : (w.putWord s).Extends w := by
  rw [putWord]
  refine .of_text (.trans ?_ (extends_put _ s)) rfl
  split
  · exact .refl w
  · exact w.extends_put " "

end Writer

open Writer

/-! ### Scalars -/

theorem extends_putSingle (indent : Nat) (cs : List Char) (broken : Bool) (w : Writer) :
    (putSingle indent cs broken w).Extends w := by
  induction cs generalizing broken w with
  | nil =>
    rw [putSingle]
    split
    · exact w.extends_indentTo indent
    · exact .refl w
  | cons c cs ih =>
    rw [putSingle]
    split
    · exact (w.extends_putBreak c).trans (ih ..)
    · split
      · exact (w.extends_put " ").trans (ih ..)
      · refine .trans ?_ (ih ..)
        refine .of_text (.trans ?_ (extends_put _ _)) rfl
        split
        · exact w.extends_indentTo indent
        · exact .refl w

theorem extends_putBlock (indent : Nat) (cs : List Char) (broken : Bool) (w : Writer) :
    (putBlock indent cs broken w).Extends w := by
  induction cs generalizing broken w with
  | nil => exact .refl w
  | cons c cs ih =>
    rw [putBlock]
    split
    · exact (w.extends_putBreak c).trans (ih ..)
    · refine .trans ?_ (ih ..)
      refine .of_text (.trans ?_ (extends_put _ _)) rfl
      split
      · exact w.extends_indentTo indent
      · exact .refl w

theorem extends_putString (s : String) (parent : Int) (w : Writer) :
    (putString s parent w).Extends w := by
  unfold putString
  dsimp only
  split
  · exact w.extends_putWord s
  · have hquote := w.extends_indicator "'" true false false
    exact (hquote.trans (extends_putSingle ..)).trans (extends_indicator ..)
  · have hquote := w.extends_indicator "\"" true false false
    exact (hquote.trans (extends_put ..)).trans (extends_indicator ..)
  · have hheader := (w.extends_indicator "|" true false false).trans
      (extends_put _ (blockHints s.toList))
    exact (Extends.of_text (hheader.trans (extends_newline _)) rfl).trans (extends_putBlock ..)

/-! ### Nodes -/

mutual

/-- Writing a node adds to the text. -/
theorem extends_putNode (parent : Int) (inMapping : Bool) :
    ∀ (v : Value) (w : Writer), (putNode parent inMapping v w).Extends w
  | .tagged tag v, w => by
    rw [putNode]
    exact (w.extends_putWord _).trans (extends_putNode parent inMapping v _)
  | .string s, w => by
    rw [putNode]
    exact extends_putString s parent w
  | .seq [], w => by
    rw [putNode]
    exact (w.extends_indicator ..).trans (extends_indicator ..)
  | .seq (item :: items), w => by
    rw [putNode]
    exact extends_putItems _ (item :: items) w
  | .map [], w => by
    rw [putNode]
    exact (w.extends_indicator ..).trans (extends_indicator ..)
  | .map (e :: entries), w => by
    rw [putNode]
    exact extends_putEntries _ (e :: entries) w
  | .null, w => w.extends_putWord _
  | .bool _, w => w.extends_putWord _
  | .int _, w => w.extends_putWord _
  | .float _, w => w.extends_putWord _

theorem extends_putItems (indent : Nat) :
    ∀ (items : List Value) (w : Writer), (putItems indent items w).Extends w
  | [], w => by
    rw [putItems]
    exact .refl w
  | v :: rest, w => by
    rw [putItems]
    have hmark := (w.extends_indentTo indent).trans (extends_indicator _ "-" true false true)
    exact (hmark.trans (extends_putNode _ _ v _)).trans (extends_putItems indent rest _)

theorem extends_putEntries (indent : Nat) :
    ∀ (entries : List (Value × Value)) (w : Writer), (putEntries indent entries w).Extends w
  | [], w => by
    rw [putEntries]
    exact .refl w
  | (k, v) :: rest, w => by
    rw [putEntries]
    have hkey : (if isSimpleKey k then
          (putNode indent true k (w.indentTo indent)).indicator ":" false false false
        else ((putNode indent true k ((w.indentTo indent).indicator "?" true false true)).indentTo
          indent).indicator ":" true false true).Extends w := by
      refine .trans (w.extends_indentTo indent) ?_
      split
      · exact (extends_putNode _ _ k _).trans (extends_indicator ..)
      · have hmark := extends_indicator (w.indentTo indent) "?" true false true
        have hnode := hmark.trans (extends_putNode indent true k _)
        exact (hnode.trans (extends_indentTo _ indent)).trans (extends_indicator ..)
    exact (hkey.trans (extends_putNode _ _ v _)).trans (extends_putEntries indent rest _)

end

end Yaml

/-! ### Marks -/

namespace Text

/-- The text has a character that no word of small letters has, and that trimming keeps. -/
def HasMark (s : String) : Prop := ∃ c ∈ s.toList, isWhite c = false ∧ c.isLower = false

theorem HasMark.append_left {s : String} (h : HasMark s) (t : String) : HasMark (s ++ t) := by
  obtain ⟨c, hc, hmark⟩ := h
  exact ⟨c, by simp [hc], hmark⟩

theorem HasMark.append_right {t : String} (h : HasMark t) (s : String) : HasMark (s ++ t) := by
  obtain ⟨c, hc, hmark⟩ := h
  exact ⟨c, by simp [hc], hmark⟩

theorem mem_dropWhile_of_mem {p : Char → Bool} {c : Char} {cs : List Char} (hc : c ∈ cs)
    (hp : p c = false) : c ∈ cs.dropWhile p := by
  rw [← List.takeWhile_append_dropWhile (p := p) (l := cs), List.mem_append] at hc
  refine hc.resolve_left fun hc => ?_
  have := List.all_takeWhile (p := p) (l := cs)
  rw [List.all_eq_true.mp this c hc] at hp
  cases hp

/-- Trimming keeps what is no white space. -/
theorem HasMark.trim {s : String} (h : HasMark s) : HasMark (trim s) := by
  obtain ⟨c, hc, hwhite, hlower⟩ := h
  refine ⟨c, ?_, hwhite, hlower⟩
  rw [Text.trim, String.toList_ofList, trimChars, List.mem_reverse]
  refine mem_dropWhile_of_mem ?_ hwhite
  rw [List.mem_reverse]
  exact mem_dropWhile_of_mem hc hwhite

theorem isMark_of_isDigit {c : Char} (h : c.isDigit = true) :
    isWhite c = false ∧ c.isLower = false := by
  have hcode : 48 ≤ c.toNat ∧ c.toNat ≤ 57 := by
    simpa [Char.isDigit, UInt32.le_iff_toNat_le] using h
  constructor
  · simp only [isWhite, Bool.or_eq_false_iff, Bool.and_eq_false_iff, decide_eq_false_iff_not,
      beq_eq_false_iff_ne]
    omega
  · rw [Bool.eq_false_iff]
    intro hlower
    have hlow : 'a'.val ≤ c.val := of_decide_eq_true (Bool.and_eq_true_iff.mp hlower).1
    exact absurd (Nat.le_trans (UInt32.le_iff_toNat_le.mp hlow) hcode.2) (by decide)

theorem hasMark_natToString (n : Nat) : HasMark (toString n) := by
  obtain ⟨c, cs, hcs, hdigit⟩ := exists_toDigits_eq_cons n
  refine ⟨c, ?_, isMark_of_isDigit hdigit⟩
  rw [toList_toString, hcs]
  exact List.mem_cons_self

theorem hasMark_intToString (n : Int) : HasMark (toString n) := by
  cases n with
  | ofNat n => exact hasMark_natToString n
  | negSucc n =>
    refine HasMark.append_left (s := "-") ⟨'-', by decide, by decide, by decide⟩ _

/-- The text of a number that is no integer has a point or an exponent. -/
theorem hasMark_decimalText (coefficient : Nat) (exponent : Int) :
    HasMark (Binary64.decimalText coefficient exponent) := by
  have hpoint : HasMark "." := ⟨'.', by decide, by decide, by decide⟩
  have hzero : ∀ s, HasMark ("0." ++ s) := .append_left ⟨'.', by decide, by decide, by decide⟩
  have hexponent : ∀ n : Int, HasMark ("e" ++ toString n) := fun n =>
    (hasMark_intToString n).append_right "e"
  unfold Binary64.decimalText
  dsimp only
  split
  · exact .append_right ⟨'.', by decide, by decide, by decide⟩ _
  · split
    · exact (hpoint.append_right _).append_left _
    · split
      · exact (hzero _).append_left _
      · split
        · exact (hexponent _).append_right _
        · exact (hexponent _).append_right _
        · exact hexponent _

theorem hasMark_text (x : Binary64) : HasMark x.text := by
  cases x with
  | nan => exact ⟨'.', by decide, by decide, by decide⟩
  | infinite negative => cases negative <;> exact ⟨'.', by decide, by decide, by decide⟩
  | finite negative m e =>
    rw [Binary64.text]
    dsimp only
    split
    · exact .append_right ⟨'.', by decide, by decide, by decide⟩ _
    · exact (hasMark_decimalText _ _).append_right _

end Text

namespace Yaml

open Writer Text

/-! ### Marks of nodes -/

variable {w w' : Writer} {s : String}

theorem Writer.Extends.hasMark (h : w'.Extends w) (hw : HasMark w.text) : HasMark w'.text := by
  obtain ⟨s, hs⟩ := h
  exact hs ▸ hw.append_left s

theorem hasMark_indicator (w : Writer) (hs : HasMark s) (needsSpace spaced indented : Bool) :
    HasMark (w.indicator s needsSpace spaced indented).text := by
  rw [indicator]
  exact hs.append_right _

theorem hasMark_putWord (w : Writer) (hs : HasMark s) : HasMark (w.putWord s).text := by
  rw [putWord]
  exact hs.append_right _

theorem hasMark_putItems (indent : Nat) (item : Value) (items : List Value) (w : Writer) :
    HasMark (putItems indent (item :: items) w).text := by
  rw [putItems]
  have hdash : HasMark "-" := ⟨'-', by decide, by decide, by decide⟩
  refine (extends_putItems indent items _).hasMark ?_
  exact (extends_putNode _ _ item _).hasMark (hasMark_indicator _ hdash ..)

theorem hasMark_putEntries (indent : Nat) (e : Value × Value) (entries : List (Value × Value))
    (w : Writer) : HasMark (putEntries indent (e :: entries) w).text := by
  rw [putEntries]
  have hcolon : HasMark ":" := ⟨':', by decide, by decide, by decide⟩
  refine (extends_putEntries indent entries _).hasMark ?_
  refine (extends_putNode _ _ e.2 _).hasMark ?_
  split
  · exact hasMark_indicator _ hcolon ..
  · exact hasMark_indicator _ hcolon ..

/-- Null, a boolean or a string. -/
def isWordLike : Value → Bool
  | .null | .bool _ | .string _ => true
  | _ => false

theorem hasMark_putNode (parent : Int) (inMapping : Bool) {v : Value} (hv : isWordLike v = false)
    (w : Writer) : HasMark (putNode parent inMapping v w).text := by
  cases v with
  | null => cases hv
  | bool b => cases hv
  | string s => cases hv
  | int n => exact hasMark_putWord w (hasMark_intToString n)
  | float x => exact hasMark_putWord w (hasMark_text x)
  | tagged tag v =>
    rw [putNode]
    have htag : HasMark "!" := ⟨'!', by decide, by decide, by decide⟩
    exact (extends_putNode _ _ v _).hasMark (hasMark_putWord w (htag.append_left _))
  | seq items =>
    cases items with
    | nil =>
      rw [putNode]
      exact hasMark_indicator _ ⟨']', by decide, by decide, by decide⟩ ..
    | cons item items =>
      rw [putNode]
      exact hasMark_putItems _ item items w
  | map entries =>
    cases entries with
    | nil =>
      rw [putNode]
      exact hasMark_indicator _ ⟨'\x7d', by decide, by decide, by decide⟩ ..
    | cons e entries =>
      rw [putNode]
      exact hasMark_putEntries _ e entries w

/-- Of the values that are no strings, only null and the booleans are printed as a word. -/
theorem hasMark_of_print {v : Value} (h : print v = .ok s) (hv : isWordLike v = false) :
    HasMark s := by
  rw [print] at h
  cases hcheck : check false v with
  | error e =>
    rw [hcheck] at h
    cases h
  | ok u =>
    rw [hcheck] at h
    cases h
    exact (extends_indentTo _ 0).hasMark (hasMark_putNode (-1) false hv {})

end Yaml

end Cookbook
