/-!
# Characters of documents

The classes of characters that the layout of a document is made of. Lines end at a line feed, a
carriage return, a next-line mark or one of the two Unicode separators.

## Main definitions

* `Yaml.isBreak`, `Yaml.isBlank`: the characters between lines and between words.
* `Yaml.isReadable`: the characters a document may hold.
* `Yaml.isPrintable`: the characters that are written as themselves.
-/

namespace Cookbook

namespace Yaml

/-- The next-line mark. -/
def nextLine : Char := Char.ofNat 0x85

/-- The byte order mark. -/
def byteOrderMark : Char := Char.ofNat 0xFEFF

/-- Whether the character ends a line. -/
def isBreak (c : Char) : Bool :=
  c == '\n' || c == '\r' || c == nextLine || c.toNat == 0x2028 || c.toNat == 0x2029

/-- Whether the character is a space or a tab. -/
def isBlank (c : Char) : Bool := c == ' ' || c == '\t'

/-- Whether the character is blank or ends a line. -/
def isSpacing (c : Char) : Bool := isBlank c || isBreak c

/-- Whether what comes next is blank, a line break or the end of the text. -/
def isSpacingOrEnd : Option Char → Bool
  | none => true
  | some c => isSpacing c

/-- Whether the character may stand in a name: a digit, a letter of ASCII, `_` or `-`. -/
def isWord (c : Char) : Bool := c.isAlphanum || c == '_' || c == '-'

/-- Whether a document may hold the character. -/
def isReadable (c : Char) : Bool :=
  let n := c.toNat
  n == 0x9 || n == 0xA || n == 0xD || (0x20 ≤ n && n ≤ 0x7E) || n == 0x85
    || (0xA0 ≤ n && n ≤ 0xFFFD) || 0x10000 ≤ n

/-- Whether the character is written as itself. -/
def isPrintable (c : Char) : Bool :=
  let n := c.toNat
  n == 0xA || (0x20 ≤ n && n ≤ 0x7E)
    || (0xA0 ≤ n && n ≤ 0xFFFD && c != byteOrderMark) || 0x10000 ≤ n

/-- The value of a hexadecimal digit. -/
def hexDigit? (c : Char) : Option Nat :=
  if c.isDigit then some (c.toNat - '0'.toNat)
  else if 'a' ≤ c ∧ c ≤ 'f' then some (c.toNat - 'a'.toNat + 10)
  else if 'A' ≤ c ∧ c ≤ 'F' then some (c.toNat - 'A'.toNat + 10)
  else none

/-- The value of a run of hexadecimal digits. -/
def hexValue? (cs : List Char) : Option Nat :=
  cs.foldlM (fun n c => (hexDigit? c).map (16 * n + ·)) 0

end Yaml

end Cookbook
