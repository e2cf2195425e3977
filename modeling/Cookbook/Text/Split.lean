/-!
# Splitting texts

Names and paths are texts in pieces, separated by a character. All functions here go over the list
of characters, so that facts about them are facts about lists.

## Main definitions

* `Text.split`: the pieces of a text between separators.
* `Text.stripStart?`, `Text.stripEnd?`: what is left when a text starts or ends with another.
* `Text.splitOnce?`: the parts before and after the first separator.
* `Text.replace`: a text with another in all places of a third.

## Main statements

* `Text.joinPieces_splitPieces`: the pieces and the separators make up the text.
-/

namespace Cookbook

namespace Text

/-! ### Pieces -/

/-- The pieces of a list between separators; one more than there are separators. -/
def splitPieces (sep : Char) : List Char → List (List Char)
  | [] => [[]]
  | c :: rest =>
    if c = sep then [] :: splitPieces sep rest
    else match splitPieces sep rest with
      | [] => [[c]]
      | piece :: pieces => (c :: piece) :: pieces

/-- Put pieces together with a separator between them. -/
def joinPieces (sep : Char) : List (List Char) → List Char
  | [] => []
  | [piece] => piece
  | piece :: pieces => piece ++ sep :: joinPieces sep pieces

theorem splitPieces_ne_nil (sep : Char) (cs : List Char) : splitPieces sep cs ≠ [] := by
  cases cs with
  | nil => simp [splitPieces]
  | cons c rest =>
    simp only [splitPieces]
    split
    · simp
    · split <;> simp

/-- The pieces and the separators make up the text. -/
theorem joinPieces_splitPieces (sep : Char) (cs : List Char) :
    joinPieces sep (splitPieces sep cs) = cs := by
  induction cs with
  | nil => rfl
  | cons c rest ih =>
    simp only [splitPieces]
    split
    · rename_i h
      subst h
      cases hs : splitPieces c rest with
      | nil => exact absurd hs (splitPieces_ne_nil c rest)
      | cons piece pieces => simpa [joinPieces, hs] using ih
    · cases hs : splitPieces sep rest with
      | nil => exact absurd hs (splitPieces_ne_nil sep rest)
      | cons piece pieces =>
        rw [hs] at ih
        cases pieces <;> simpa [joinPieces] using ih

/-- The pieces of a text between separators. -/
def split (sep : Char) (s : String) : List String := (splitPieces sep s.toList).map String.ofList

/-! ### Starts and ends -/

/-- What is left of a list that starts with another. -/
def dropStart? : List Char → List Char → Option (List Char)
  | [], cs => some cs
  | _ :: _, [] => none
  | p :: ps, c :: cs => if p = c then dropStart? ps cs else none

theorem dropStart?_eq_some_iff {p cs rest : List Char} :
    dropStart? p cs = some rest ↔ cs = p ++ rest := by
  induction p generalizing cs with
  | nil => simp [dropStart?, eq_comm]
  | cons a p ih =>
    cases cs with
    | nil => simp [dropStart?]
    | cons c cs =>
      by_cases h : a = c
      · simp [dropStart?, h, ih]
      · simp [dropStart?, h, Ne.symm h]

/-- What is left of a text that starts with another. -/
def stripStart? (p s : String) : Option String :=
  (dropStart? p.toList s.toList).map String.ofList

/-- Whether a text starts with another. -/
def hasStart (p s : String) : Bool := (dropStart? p.toList s.toList).isSome

/-- What is left of a text that ends with another. -/
def stripEnd? (p s : String) : Option String :=
  (dropStart? p.toList.reverse s.toList.reverse).map (fun cs => String.ofList cs.reverse)

/-- Whether a text ends with another. -/
def hasEnd (p s : String) : Bool := (stripEnd? p s).isSome

/-- The parts before and after the first separator. -/
def splitOnce? (sep : Char) (s : String) : Option (String × String) :=
  match s.toList.dropWhile (· != sep) with
  | [] => none
  | _ :: after => some (String.ofList (s.toList.takeWhile (· != sep)), String.ofList after)

/-- The part after the last separator, or the whole text. -/
def afterLast (sep : Char) (s : String) : String :=
  String.ofList ((s.toList.reverse.takeWhile (· != sep)).reverse)

/-- Whether a text occurs within another. -/
def occursIn (p s : String) : Bool :=
  go p.toList s.toList
where
  /-- Try each position in turn. -/
  go (p : List Char) : List Char → Bool
    | [] => p.isEmpty
    | c :: cs => (dropStart? p (c :: cs)).isSome || go p cs

/-- A list in which a list is put for each occurrence of another, from left to right, after some
characters that are left out. -/
def replaceChars (old new : List Char) : Nat → List Char → List Char
  | _, [] => []
  | skip + 1, _ :: cs => replaceChars old new skip cs
  | 0, c :: cs =>
    match dropStart? old (c :: cs) with
    | some _ => new ++ replaceChars old new (old.length - 1) cs
    | none => c :: replaceChars old new 0 cs

/-- A text in which a text is put for each occurrence of another, which is not empty, from left to
right. -/
def replace (old new s : String) : String :=
  String.ofList (replaceChars old.toList new.toList 0 s.toList)

end Text

end Cookbook
