import Cookbook.Yaml.Character

/-!
# Positions in a text

A `Cursor` is the part of a text not read yet together with where it starts. Layout depends on
columns and on how far apart two places are, so the cursor counts characters, lines and columns.

## Main definitions

* `Yaml.Cursor`: the rest of the text and its position.
* `Yaml.Cursor.skip`, `skipBreak`, `skipWhile`, `takeWhile`: moving forward.
-/

namespace Cookbook

namespace Yaml

/-- The part of a text not read yet and where it starts. -/
structure Cursor where
  /-- What is still to be read. -/
  rest : List Char
  /-- The number of characters before it. -/
  index : Nat
  /-- The number of lines before it. -/
  line : Nat
  /-- The number of characters before it on its line. -/
  column : Nat
  deriving Repr, Inhabited

namespace Cursor

/-- The start of a text. -/
def start (text : List Char) : Cursor := ⟨text, 0, 0, 0⟩

/-- The next character. -/
def peek (c : Cursor) : Option Char := c.rest.head?

/-- The character after `n` others. -/
def peekAt (c : Cursor) (n : Nat) : Option Char := c.rest[n]?

/-- Whether the next character is this one. -/
def isAt (c : Cursor) (ch : Char) : Bool := c.peek == some ch

/-- Whether the next character passes a test. -/
def holds (c : Cursor) (p : Char → Bool) : Bool := c.peek.any p

/-- Whether a line break or the end comes next. -/
def atBreakOrEnd (c : Cursor) : Bool := c.peek.all isBreak

/-- Whether a blank, a line break or the end comes next. -/
def atSpacingOrEnd (c : Cursor) : Bool := isSpacingOrEnd c.peek

/-- Whether the text ends here. -/
def atEnd (c : Cursor) : Bool := c.rest.isEmpty

/-- Move over `n` characters of one line. -/
def skip (c : Cursor) (n : Nat) : Cursor :=
  { c with rest := c.rest.drop n, index := c.index + n, column := c.column + n }

/-- Move over the characters that pass a test; none of them ends a line. -/
def skipWhile (p : Char → Bool) (c : Cursor) : Cursor := c.skip (c.rest.takeWhile p).length

/-- The characters that pass a test and the cursor after them. -/
def takeWhile (p : Char → Bool) (c : Cursor) : List Char × Cursor :=
  let run := c.rest.takeWhile p
  (run, c.skip run.length)

/-- The cursor on the next line, `n` characters on. -/
def nextLine (c : Cursor) (n : Nat) : Cursor :=
  { rest := c.rest.drop n, index := c.index + n, line := c.line + 1, column := 0 }

/-- Read a line break. A Unicode separator stands for itself, all others for a line feed. -/
def takeBreak (c : Cursor) : List Char × Cursor :=
  match c.rest with
  | '\r' :: '\n' :: _ => (['\n'], c.nextLine 2)
  | ch :: _ =>
    if ch.toNat == 0x2028 || ch.toNat == 0x2029 then ([ch], c.nextLine 1)
    else if isBreak ch then (['\n'], c.nextLine 1)
    else ([], c)
  | [] => ([], c)

/-- Move over a line break. -/
def skipBreak (c : Cursor) : Cursor := c.takeBreak.2

/-- Move over blanks. -/
def skipBlanks (c : Cursor) : Cursor := c.skipWhile isBlank

/-- Move over a comment, up to the end of its line. -/
def skipComment (c : Cursor) : Cursor :=
  if c.isAt '#' then c.skipWhile (fun ch => !isBreak ch) else c

/-- Whether three equal marks followed by spacing stand at the start of the line. -/
def atDocumentMark (c : Cursor) (mark : Char) : Bool :=
  c.column == 0 && c.rest.take 3 == [mark, mark, mark] && isSpacingOrEnd (c.peekAt 3)

/-- Whether a document starts or ends on this line. -/
def atDocumentBoundary (c : Cursor) : Bool := c.atDocumentMark '-' || c.atDocumentMark '.'

end Cursor

end Yaml

end Cookbook
