/-!
# White space

## Main definitions

* `Text.isWhite`: the characters with the Unicode property `White_Space`.
* `Text.trim`: a text without white space at its ends.
-/

namespace Cookbook

namespace Text

/-- Whether the character has the Unicode property `White_Space`. -/
def isWhite (c : Char) : Bool :=
  let n := c.toNat
  (0x9 ≤ n && n ≤ 0xD) || n == 0x20 || n == 0x85 || n == 0xA0 || n == 0x1680
    || (0x2000 ≤ n && n ≤ 0x200A) || n == 0x2028 || n == 0x2029 || n == 0x202F || n == 0x205F
    || n == 0x3000

/-- The characters without white space at both ends. -/
def trimChars (cs : List Char) : List Char :=
  ((cs.dropWhile isWhite).reverse.dropWhile isWhite).reverse

/-- A text without white space at its ends. -/
def trim (s : String) : String := String.ofList (trimChars s.toList)

/-- Whether a text has nothing but white space. -/
def isBlank (s : String) : Bool := s.toList.all isWhite

end Text

end Cookbook
