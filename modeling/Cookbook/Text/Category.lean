import Cookbook.Text.CategoryRuns

/-!
# General categories of characters

## Main definitions

* `Text.category`: the general category of a character.
* `Text.isOther`: the characters that are not visible or not assigned.
* `Text.isDigit`, `Text.isWord`: decimal digits, and what words are made of.
-/

namespace Cookbook

namespace Text

/-- All runs, ascending. -/
def allRuns : List (Nat × Run) :=
  runs0 ++ runs800 ++ runs1800 ++ runs3000 ++ runsE000 ++ runs11000 ++ runs16000 ++ runs1F000

/-- The last run that starts at a code point or before it. -/
def runOf (n : Nat) (found : Nat × Run) : List (Nat × Run) → Nat × Run
  | [] => found
  | r :: rest => if r.1 ≤ n then runOf n r rest else found

/-- The general category of a character. -/
def category (c : Char) : Run :=
  match runOf c.toNat (0, .cc) allRuns with
  | (start, .cased) => if (c.toNat - start) % 2 = 0 then .lu else .ll
  | (_, r) => r

/-- Whether a character is a control, a format control, for private use or not assigned. -/
def isOther (c : Char) : Bool := [Run.cc, .cf, .cs, .co, .cn].contains (category c)

/-- Whether a character is a decimal digit. -/
def isDigit (c : Char) : Bool := category c == .nd

/-- Whether a character is an alphabetic symbol: a circled or squared letter. -/
def isLetterSymbol (c : Char) : Bool :=
  let n := c.toNat
  (0x24B6 ≤ n && n ≤ 0x24E9) || (0x1F130 ≤ n && n ≤ 0x1F149) || (0x1F150 ≤ n && n ≤ 0x1F169)
    || (0x1F170 ≤ n && n ≤ 0x1F189)

/-- Whether a character is part of a word: alphabetic, a mark, a decimal digit, a connector or one
of the two joiners. -/
def isWord (c : Char) : Bool :=
  [Run.lu, .ll, .lt, .lm, .lo, .nl, .mn, .mc, .me, .nd, .pc].contains (category c)
    || isLetterSymbol c || c.toNat == 0x200C || c.toNat == 0x200D

end Text

end Cookbook
