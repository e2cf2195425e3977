import Cookbook.Yaml.Cursor
import Cookbook.Yaml.Error

/-!
# The text of scalars

A scalar is written plainly, in quotes or as a block. Each reader takes the cursor at the first
character of the scalar and gives the text meant together with the cursor after it. In plain and
quoted scalars a single line break stands for a space and further ones for themselves; in a block
the lines are kept, or folded under the same rule as long as they are not indented further.

Each loop runs at most once for each character that is left.

## Main definitions

* `Yaml.plainScalar`, `Yaml.quotedScalar`, `Yaml.blockScalar`.
-/

namespace Cookbook

namespace Yaml

/-! ### Spacing between words -/

/-- Blanks and line breaks between two words: the blanks before the first break, that break, and
the breaks after it. -/
structure Gap where
  /-- Blanks before any line break. -/
  blanks : List Char := []
  /-- The first line break. -/
  first : List Char := []
  /-- The other line breaks. -/
  others : List Char := []
  /-- Whether a line break was met. -/
  broken : Bool := false

/-- What a gap stands for: its blanks on one line, a space for one break, else the further
breaks. -/
def Gap.text (g : Gap) : List Char :=
  if g.broken then
    if g.first.head? == some '\n' then if g.others.isEmpty then [' '] else g.others
    else g.first ++ g.others
  else g.blanks

/-- Read blanks and line breaks. A tab left of column `indent` on a later line is refused. -/
def takeGap (indent : Nat) : Nat → Gap → Cursor → Except Failure (Gap × Cursor)
  | 0, g, c => .ok (g, c)
  | fuel + 1, g, c =>
    match c.peek with
    | none => .ok (g, c)
    | some ch =>
      if isBlank ch then
        if g.broken then
          if ch == '\t' && c.column < indent then
            .error (.malformedToken "found a tab character that violates indentation")
          else takeGap indent fuel g (c.skip 1)
        else takeGap indent fuel { g with blanks := g.blanks ++ [ch] } (c.skip 1)
      else if isBreak ch then
        let (br, c) := c.takeBreak
        if g.broken then takeGap indent fuel { g with others := g.others ++ br } c
        else takeGap indent fuel { g with blanks := [], first := br, broken := true } c
      else .ok (g, c)

/-! ### Plain scalars -/

/-- Whether a character separates the entries of a flow collection. -/
def isFlowMark (c : Char) : Bool :=
  c == ',' || c == '[' || c == ']' || c == '\x7b' || c == '\x7d'

/-- Read the rest of a word of a plain scalar. -/
def plainWord (flow : Bool) : Nat → List Char → Cursor → Except Failure (List Char × Cursor)
  | 0, acc, c => .ok (acc.reverse, c)
  | fuel + 1, acc, c =>
    match c.peek with
    | none => .ok (acc.reverse, c)
    | some ch =>
      if isSpacing ch then .ok (acc.reverse, c)
      else
        let next := c.peekAt 1
        if flow && ch == ':' && next.any (fun n => isFlowMark n || n == '?') then
          .error (.malformedToken "found unexpected ':'")
        else if (ch == ':' && isSpacingOrEnd next) || (flow && isFlowMark ch) then
          .ok (acc.reverse, c)
        else plainWord flow fuel (ch :: acc) (c.skip 1)

/-- A plain scalar: its text, the cursor after it and whether a line break came last. -/
structure PlainScalar where
  /-- The text. -/
  text : List Char
  /-- Where reading goes on. -/
  next : Cursor
  /-- Whether spacing with a line break was read after the last word. -/
  broken : Bool

/-- Read words and the gaps between them until an indicator, a comment, a document boundary or a
line that is not indented enough. -/
def plainWords (flow : Bool) (indent : Nat) :
    Nat → List Char → Gap → Cursor → Except Failure PlainScalar
  | 0, acc, g, c => .ok ⟨acc, c, g.broken⟩
  | fuel + 1, acc, g, c => do
    if c.atDocumentBoundary || c.isAt '#' then return ⟨acc, c, g.broken⟩
    let (word, c) ← plainWord flow (c.rest.length + 1) [] c
    let (acc, g) := if word.isEmpty then (acc, g) else (acc ++ g.text ++ word, {})
    if !c.holds isSpacing then return ⟨acc, c, g.broken⟩
    let (g, c) ← takeGap indent (c.rest.length + 1) g c
    if !flow && c.column < indent then return ⟨acc, c, g.broken⟩
    plainWords flow indent fuel acc g c

/-- Read a plain scalar below the indentation level `parent`. -/
def plainScalar (flow : Bool) (parent : Int) (c : Cursor) : Except Failure PlainScalar :=
  plainWords flow (parent + 1).toNat (c.rest.length + 1) [] {} c

/-! ### Quoted scalars -/

/-- What a backslash with this character stands for, if it is one character. -/
def escapedChar? : Char → Option Char
  | '0' => some (Char.ofNat 0)
  | 'a' => some (Char.ofNat 7)
  | 'b' => some (Char.ofNat 8)
  | 't' | '\t' => some '\t'
  | 'n' => some '\n'
  | 'v' => some (Char.ofNat 0x0B)
  | 'f' => some (Char.ofNat 0x0C)
  | 'r' => some '\r'
  | 'e' => some (Char.ofNat 0x1B)
  | ' ' => some ' '
  | '"' => some '"'
  | '/' => some '/'
  | '\\' => some '\\'
  | 'N' => some (Char.ofNat 0x85)
  | '_' => some (Char.ofNat 0xA0)
  | 'L' => some (Char.ofNat 0x2028)
  | 'P' => some (Char.ofNat 0x2029)
  | _ => none

/-- How many hexadecimal digits follow a backslash with this character. -/
def escapeLength? : Char → Option Nat
  | 'x' => some 2
  | 'u' => some 4
  | 'U' => some 8
  | _ => none

/-- Read an escape sequence from the character after the backslash on. -/
def escapeSequence (c : Cursor) : Except Failure (Char × Cursor) :=
  match c.peek with
  | none => .error (.malformedToken "found unknown escape character")
  | some ch =>
    match escapedChar? ch, escapeLength? ch with
    | some r, _ => .ok (r, c.skip 1)
    | none, some n =>
      let digits := (c.rest.drop 1).take n
      match if digits.length = n then hexValue? digits else none with
      | none => .error (.malformedToken "did not find expected hexadecimal number")
      | some v =>
        if (0xD800 ≤ v ∧ v ≤ 0xDFFF) ∨ v > 0x10FFFF then
          .error (.malformedToken "found invalid Unicode character escape code")
        else .ok (Char.ofNat v, c.skip (n + 1))
    | none, none => .error (.malformedToken "found unknown escape character")

/-- Read the characters of a quoted scalar up to spacing, the closing quote or an escaped line
break, putting them in front of `acc`; the answer says whether it was the latter. -/
def quotedRun (single : Bool) :
    Nat → List Char → Cursor → Except Failure (List Char × Bool × Cursor)
  | 0, acc, c => .ok (acc, false, c)
  | fuel + 1, acc, c =>
    match c.peek with
    | none => .ok (acc, false, c)
    | some ch =>
      if isSpacing ch then .ok (acc, false, c)
      else if single then
        if ch == '\'' then
          if c.peekAt 1 == some '\'' then quotedRun single fuel ('\'' :: acc) (c.skip 2)
          else .ok (acc, false, c)
        else quotedRun single fuel (ch :: acc) (c.skip 1)
      else if ch == '"' then .ok (acc, false, c)
      else if ch == '\\' then
        if (c.peekAt 1).any isBreak then .ok (acc, true, (c.skip 1).skipBreak)
        else do
          let (r, c) ← escapeSequence (c.skip 1)
          quotedRun single fuel (r :: acc) c
      else quotedRun single fuel (ch :: acc) (c.skip 1)

/-- Read a quoted scalar from after its opening quote on; `acc` has what was read, last character
first. -/
def quotedRest (single : Bool) : Nat → List Char → Cursor → Except Failure (List Char × Cursor)
  | 0, _, _ => .error (.malformedToken "found unexpected end of stream")
  | fuel + 1, acc, c => do
    if c.atDocumentBoundary then
      throw (.malformedToken "found unexpected document indicator")
    if c.atEnd then throw (.malformedToken "found unexpected end of stream")
    let (acc, joined, c) ← quotedRun single (c.rest.length + 1) acc c
    if c.isAt (if single then '\'' else '"') then return (acc.reverse, c.skip 1)
    let (g, c) ← takeGap 0 (c.rest.length + 1) { broken := joined } c
    quotedRest single fuel (g.text.reverse ++ acc) c

/-- Read a quoted scalar; the cursor is at its opening quote. -/
def quotedScalar (single : Bool) (c : Cursor) : Except Failure (List Char × Cursor) :=
  quotedRest single (c.rest.length + 1) [] (c.skip 1)

/-! ### Block scalars -/

/-- What happens to the line breaks at the end of a block scalar. -/
inductive Chomping where
  /-- None is kept. -/
  | strip
  /-- One is kept. -/
  | clip
  /-- All are kept. -/
  | keep
  deriving DecidableEq

/-- Read an indentation digit of a block scalar's header. -/
def indentDigit (c : Cursor) : Except Failure (Option Nat × Cursor) :=
  match c.peek with
  | some ch =>
    if ch == '0' then .error (.malformedToken "found an indentation indicator equal to 0")
    else if ch.isDigit then .ok (some (ch.toNat - '0'.toNat), c.skip 1)
    else .ok (none, c)
  | none => .ok (none, c)

/-- Read a chomping sign of a block scalar's header. -/
def chompingSign (c : Cursor) : Option Chomping × Cursor :=
  if c.isAt '+' then (some .keep, c.skip 1)
  else if c.isAt '-' then (some .strip, c.skip 1)
  else (none, c)

/-- Read the signs of a block scalar's header, in either order. -/
def blockHeader (c : Cursor) : Except Failure (Chomping × Option Nat × Cursor) := do
  match chompingSign c with
  | (some chomp, c) =>
    let (digit, c) ← indentDigit c
    return (chomp, digit, c)
  | (none, c) =>
    let (digit, c) ← indentDigit c
    match digit with
    | none => return (.clip, none, c)
    | some d =>
      let (chomp, c) := chompingSign c
      return (chomp.getD .clip, some d, c)

/-- Read empty lines and the indentation of the line after them. While the indentation is not
known, all spaces belong to it. The answer has the breaks, the widest indentation seen and the
cursor. -/
def blockBreaks (indent : Option Nat) :
    Nat → List Char → Nat → Cursor → Except Failure (List Char × Nat × Cursor)
  | 0, acc, widest, c => .ok (acc, widest, c)
  | fuel + 1, acc, widest, c =>
    let run := (c.rest.takeWhile (· == ' ')).length
    let c := c.skip (match indent with
      | none => run
      | some n => min run (n - c.column))
    let widest := max widest c.column
    if c.isAt '\t' && indent.all (c.column < ·) then
      .error (.malformedToken
        "found a tab character where an indentation space is expected")
    else if c.holds isBreak then
      let (br, c) := c.takeBreak
      blockBreaks indent fuel (acc ++ br) widest c
    else .ok (acc, widest, c)

/-- Read the lines of a block scalar. `lead` is the break after the line before, `breaks` the empty
lines after that, and `deeper` whether the line before was indented further. -/
def blockLines (literal : Bool) (indent : Nat) (chomp : Chomping) :
    Nat → List Char → List Char → List Char → Bool → Cursor → Except Failure (List Char × Cursor)
  | 0, acc, _, _, _, c => .ok (acc, c)
  | fuel + 1, acc, lead, breaks, deeper, c => do
    if c.column == indent && !c.atEnd then
      let blank := c.holds isBlank
      let joint :=
        if !literal && lead.head? == some '\n' && !deeper && !blank then
          if breaks.isEmpty then [' '] else []
        else lead
      let (content, c) := c.takeWhile (fun ch => !isBreak ch)
      let acc := acc ++ joint ++ breaks ++ content
      let (lead, c) := c.takeBreak
      let (breaks, _, c) ← blockBreaks (some indent) (c.rest.length + 1) [] 0 c
      blockLines literal indent chomp fuel acc lead breaks blank c
    else
      let tail := match chomp with
        | .strip => []
        | .clip => lead
        | .keep => lead ++ breaks
      return (acc ++ tail, c)

/-- Read a block scalar below the indentation level `parent`; the cursor is at its sign. -/
def blockScalar (literal : Bool) (parent : Int) (c : Cursor) :
    Except Failure (List Char × Cursor) := do
  let (chomp, digit, c) ← blockHeader (c.skip 1)
  let c := c.skipBlanks.skipComment
  if !c.atBreakOrEnd then
    throw (.malformedToken "did not find expected comment or line break")
  let c := c.skipBreak
  let fuel := c.rest.length + 1
  let fixed := digit.map (fun d => parent.toNat + d)
  let (breaks, widest, c) ← blockBreaks fixed fuel [] 0 c
  let indent := fixed.getD (max widest (max (parent + 1).toNat 1))
  blockLines literal indent chomp fuel [] [] breaks false c

end Yaml

end Cookbook
