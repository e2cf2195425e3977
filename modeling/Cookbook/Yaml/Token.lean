import Cookbook.Yaml.ScalarText

/-!
# Tokens of a document

A document in blocks has structure only in its indentation. The scanner turns indentation into
tokens that open and close collections, after which only the order of tokens matters.

That a scalar is a key is known only at the colon after it. The scanner remembers, for each level of
flow collections, the place where a key could have started, and puts the key token there when the
colon comes. Such a key fits on one line and is at most 1024 characters long.

## Main definitions

* `Yaml.Token`: the tokens.
* `Yaml.Scanner`: the state of scanning.
* `Yaml.tokens`: the tokens of a text.
-/

namespace Cookbook

namespace Yaml

/-- A token of a document. -/
inductive Token where
  /-- The mark before a document. -/
  | documentStart
  /-- The mark after a document. -/
  | documentEnd
  /-- The format version a document asks for. -/
  | version (major minor : Nat)
  /-- A short handle for the start of tags. -/
  | tagHandle (handle start : String)
  /-- A sequence in block form starts. -/
  | blockSequence
  /-- A mapping in block form starts. -/
  | blockMapping
  /-- A collection in block form ends. -/
  | blockEnd
  /-- An opening bracket. -/
  | openSequence
  /-- A closing bracket. -/
  | closeSequence
  /-- An opening brace. -/
  | openMapping
  /-- A closing brace. -/
  | closeMapping
  /-- The dash before an item. -/
  | blockEntry
  /-- The comma between entries. -/
  | flowEntry
  /-- A key comes. -/
  | key
  /-- The value of a key comes. -/
  | value
  /-- A reference to an anchored node. -/
  | alias (name : String)
  /-- A name for the node that comes. -/
  | anchor (name : String)
  /-- A tag for the node that comes. -/
  | tag (handle suffix : String)
  /-- A scalar and whether it is written plainly. -/
  | scalar (plain : Bool) (text : String)
  deriving Repr, DecidableEq, Inhabited

/-- A place where a key may have started. -/
structure KeyPlace where
  /-- Whether it must be a key, as everything at the indentation of a mapping. -/
  required : Bool
  /-- How many tokens come before it. -/
  tokenCount : Nat
  /-- Its number of characters from the start. -/
  index : Nat
  /-- Its line. -/
  line : Nat
  /-- Its column. -/
  column : Nat
  deriving Repr

/-- The state of scanning. -/
structure Scanner where
  /-- The text still to be read. -/
  cursor : Cursor
  /-- The number of open flow collections. -/
  flowLevel : Nat := 0
  /-- The column of the innermost block collection, `-1` outside of all. -/
  indent : Int := -1
  /-- The columns of the block collections around it. -/
  outer : List Int := []
  /-- Whether a key may start here. -/
  keyAllowed : Bool := true
  /-- The possible key of the innermost flow level. -/
  place : Option KeyPlace := none
  /-- The possible keys of the levels around it. -/
  outerPlaces : List (Option KeyPlace) := []
  /-- The tokens so far. -/
  tokens : Array Token := #[]

namespace Scanner

/-! ### Indentation and possible keys -/

/-- Add a token. -/
def push (s : Scanner) (t : Token) : Scanner := { s with tokens := s.tokens.push t }

/-- Add a token at the end, or at a place among the earlier ones. -/
def pushAt (s : Scanner) (at? : Option Nat) (t : Token) : Scanner :=
  match at? with
  | none => s.push t
  | some n => { s with tokens := (s.tokens.toList.insertIdx n t).toArray }

/-- Open a block collection if this column is further right than the innermost one. -/
def openBlock (s : Scanner) (column : Nat) (at? : Option Nat) (t : Token) : Scanner :=
  if s.flowLevel = 0 ∧ s.indent < column then
    { s.pushAt at? t with indent := column, outer := s.indent :: s.outer }
  else s

/-- Close the block collections further right than a column, going over the list of outer columns.
-/
def closeBlocks (column : Int) : List Int → Scanner → Scanner
  | [], s => s
  | i :: rest, s =>
    if s.indent > column then
      closeBlocks column rest { s.push .blockEnd with indent := i, outer := rest }
    else s

/-- Close the block collections further right than a column. -/
def closeTo (s : Scanner) (column : Int) : Scanner :=
  if s.flowLevel = 0 then closeBlocks column s.outer s else s

/-- The failure of a key without its colon. -/
def missingColon : Failure := .malformedToken "could not find expected ':'"

/-- Forget the possible key of this level. -/
def dropPlace (s : Scanner) : Except Failure Scanner :=
  match s.place with
  | some p => if p.required then .error missingColon else .ok { s with place := none }
  | none => .ok s

/-- Whether a possible key has been left behind: its line has ended or it is too long. -/
def isStale (c : Cursor) (p : KeyPlace) : Bool := p.line < c.line || p.index + 1024 < c.index

/-- A possible key, unless it has been left behind. -/
def refresh (c : Cursor) : Option KeyPlace → Except Failure (Option KeyPlace)
  | none => .ok none
  | some p =>
    if isStale c p then if p.required then .error missingColon else .ok none
    else .ok (some p)

/-- Forget the possible keys that have been left behind. -/
def dropStale (s : Scanner) : Except Failure Scanner := do
  let outerPlaces ← s.outerPlaces.mapM (refresh s.cursor)
  let place ← refresh s.cursor s.place
  return { s with place, outerPlaces }

/-- Remember that a key may start here. -/
def savePlace (s : Scanner) : Except Failure Scanner := do
  if s.keyAllowed then
    let c := s.cursor
    let s ← s.dropPlace
    let place : KeyPlace :=
      { required := s.flowLevel = 0 ∧ s.indent = c.column, tokenCount := s.tokens.size,
        index := c.index, line := c.line, column := c.column }
    return { s with place := some place }
  else return s

/-! ### Marks -/

/-- Read a mark of `n` characters that stands for a token. -/
def mark (s : Scanner) (n : Nat) (t : Token) : Scanner :=
  { s.push t with cursor := s.cursor.skip n }

/-- Read the mark before or after a document. -/
def documentMark (s : Scanner) (t : Token) : Except Failure Scanner := do
  let s ← (s.closeTo (-1)).dropPlace
  return { s.mark 3 t with keyAllowed := false }

/-- Read the opening of a flow collection. -/
def openFlow (s : Scanner) (t : Token) : Except Failure Scanner := do
  let s ← s.savePlace
  return { s.mark 1 t with
    flowLevel := s.flowLevel + 1, place := none, outerPlaces := s.place :: s.outerPlaces,
    keyAllowed := true }

/-- Read the closing of a flow collection. -/
def closeFlow (s : Scanner) (t : Token) : Except Failure Scanner := do
  let s ← s.dropPlace
  let s := match s.outerPlaces with
    | p :: rest => { s with flowLevel := s.flowLevel - 1, place := p, outerPlaces := rest }
    | [] => s
  return { s.mark 1 t with keyAllowed := false }

/-- Read the comma between entries of a flow collection. -/
def flowComma (s : Scanner) : Except Failure Scanner := do
  let s ← s.dropPlace
  return { s.mark 1 .flowEntry with keyAllowed := true }

/-- Read the dash before an item of a sequence. -/
def dash (s : Scanner) : Except Failure Scanner := do
  if s.flowLevel = 0 ∧ !s.keyAllowed then
    throw (.malformedToken "block sequence entries are not allowed in this context")
  let s ← (s.openBlock s.cursor.column none .blockSequence).dropPlace
  return { s.mark 1 .blockEntry with keyAllowed := true }

/-- Read the question mark before a key. -/
def questionMark (s : Scanner) : Except Failure Scanner := do
  if s.flowLevel = 0 ∧ !s.keyAllowed then
    throw (.malformedToken "mapping keys are not allowed in this context")
  let s ← (s.openBlock s.cursor.column none .blockMapping).dropPlace
  return { s.mark 1 .key with keyAllowed := s.flowLevel = 0 }

/-- Read the colon before a value. If a key may have started before, it did. -/
def colon (s : Scanner) : Except Failure Scanner := do
  match s.place with
  | some p =>
    let s := s.pushAt (some p.tokenCount) .key
    let s := s.openBlock p.column (some p.tokenCount) .blockMapping
    return { s.mark 1 .value with place := none, keyAllowed := false }
  | none =>
    if s.flowLevel = 0 ∧ !s.keyAllowed then
      throw (.malformedToken "mapping values are not allowed in this context")
    let s := s.openBlock s.cursor.column none .blockMapping
    return { s.mark 1 .value with keyAllowed := s.flowLevel = 0 }

/-! ### Anchors and tags -/

/-- Read an anchor or an alias. -/
def anchorName (c : Cursor) : Except Failure (String × Cursor) := do
  let (name, c) := (c.skip 1).takeWhile isWord
  let ends := c.atSpacingOrEnd || c.holds (fun ch => "?:,]\x7d%@`".toList.contains ch)
  if name.isEmpty || !ends then
    throw (.malformedToken "did not find expected alphabetic or numeric character")
  return (String.ofList name, c)

/-- Read a tag handle: an exclamation mark, a word, and maybe another mark. -/
def tagHandleText (c : Cursor) : Except Failure (List Char × Cursor) := do
  if !c.isAt '!' then throw (.malformedToken "did not find expected '!'")
  let (word, c) := (c.skip 1).takeWhile isWord
  if c.isAt '!' then return ('!' :: word ++ ['!'], c.skip 1)
  return ('!' :: word, c)

/-- Whether the character may stand in a tag; commas and brackets only within angle brackets. -/
def isTagChar (verbatim : Bool) (c : Char) : Bool :=
  isWord c || ";/?:@&=+$.%!~*'()".toList.contains c || (verbatim && ",[]".toList.contains c)

/-- The number of bytes of a character by its first byte. -/
def sequenceLength (byte : Nat) : Nat :=
  if byte < 0x80 then 1
  else if 0xC0 ≤ byte ∧ byte < 0xE0 then 2
  else if 0xE0 ≤ byte ∧ byte < 0xF0 then 3
  else if 0xF0 ≤ byte ∧ byte < 0xF8 then 4
  else 0

/-- The byte written as a percent sign and two digits. -/
def percentByte : List Char → Option (Nat × List Char)
  | '%' :: a :: b :: rest => (hexValue? [a, b]).map (·, rest)
  | _ => none

/-- Read the bytes of a character in a tag; `n` of them are missing to `bytes`. -/
def percentBytes : Nat → List Nat → List Char → Option (List Nat × List Char)
  | 0, bytes, rest => some (bytes, rest)
  | n + 1, bytes, rest => do
    let (b, rest) ← percentByte rest
    if b / 64 = 2 then percentBytes n (bytes ++ [b]) rest else none

/-- Read a character of a tag written by its bytes. -/
def percentChar (cs : List Char) : Option (List Char × List Char) := do
  let (b, rest) ← percentByte cs
  let n := sequenceLength b
  if n = 0 then none
  else do
    let (bytes, rest) ← percentBytes (n - 1) [b] rest
    let text ← String.fromUTF8? (ByteArray.mk (bytes.map Nat.toUInt8).toArray)
    return (text.toList, rest)

/-- Read the characters of a tag. -/
def tagChars (verbatim : Bool) :
    Nat → List Char → List Char → Except Failure (List Char × List Char)
  | 0, acc, rest => .ok (acc, rest)
  | fuel + 1, acc, rest =>
    match rest with
    | [] => .ok (acc, rest)
    | ch :: tail =>
      if ch == '%' then
        match percentChar rest with
        | some (cs, rest) => tagChars verbatim fuel (acc ++ cs) rest
        | none => .error (.malformedToken "found an incorrect octet in a tag")
      else if isTagChar verbatim ch then tagChars verbatim fuel (acc ++ [ch]) tail
      else .ok (acc, rest)

/-- Read the characters of a tag that come after `head`, whose exclamation mark is left out. -/
def tagSuffix (verbatim : Bool) (head : List Char) (c : Cursor) :
    Except Failure (String × Cursor) := do
  let (cs, rest) ← tagChars verbatim (c.rest.length + 1) [] c.rest
  if cs.isEmpty && head.isEmpty then throw (.malformedToken "did not find expected tag URI")
  return (String.ofList (head.drop 1 ++ cs), c.skip (c.rest.length - rest.length))

/-- Read a tag as its handle and the rest. -/
def tagText (flow : Bool) (c : Cursor) : Except Failure (String × String × Cursor) := do
  let (handle, suffix, c) ←
    if c.peekAt 1 == some '<' then do
      let (suffix, c) ← tagSuffix true [] (c.skip 2)
      if !c.isAt '>' then throw (.malformedToken "did not find the expected '>'")
      pure ("", suffix, c.skip 1)
    else do
      let (handle, c) ← tagHandleText c
      if handle.length > 1 && handle.getLast? == some '!' then
        let (suffix, c) ← tagSuffix false [] c
        pure (String.ofList handle, suffix, c)
      else
        let (suffix, c) ← tagSuffix false handle c
        pure (if suffix.isEmpty then ("", "!", c) else ("!", suffix, c))
  if !(c.atSpacingOrEnd || (flow && c.isAt ',')) then
    throw (.malformedToken "did not find expected whitespace or line break")
  return (handle, suffix, c)

/-! ### Directives -/

/-- Read a part of a version number. -/
def versionPart (c : Cursor) : Except Failure (Nat × Cursor) := do
  let (digits, c) := c.takeWhile Char.isDigit
  if digits.isEmpty || digits.length > 9 then
    throw (.malformedToken "did not find expected version number")
  return (digits.foldl (fun n d => 10 * n + (d.toNat - '0'.toNat)) 0, c)

/-- Read a directive's name and value. -/
def directiveBody (c : Cursor) : Except Failure (Token × Cursor) := do
  let (name, c) := (c.skip 1).takeWhile isWord
  if name.isEmpty then throw (.malformedToken "could not find expected directive name")
  if !c.atSpacingOrEnd then
    throw (.malformedToken "found unexpected non-alphabetical character")
  let c := c.skipBlanks
  if name = "YAML".toList then
    let (major, c) ← versionPart c
    if !c.isAt '.' then throw (.malformedToken "did not find expected digit or '.' character")
    let (minor, c) ← versionPart (c.skip 1)
    return (.version major minor, c)
  else if name = "TAG".toList then
    let (handle, c) ← tagHandleText c
    if handle != ['!'] && (handle.length < 2 || handle.getLast? != some '!') then
      throw (.malformedToken "did not find expected '!'")
    if !c.holds isBlank then throw (.malformedToken "did not find expected whitespace")
    let (start, c) ← tagSuffix true [] c.skipBlanks
    if !c.atSpacingOrEnd then
      throw (.malformedToken "did not find expected whitespace or line break")
    return (.tagHandle (String.ofList handle) start, c)
  else throw (.malformedToken "found unknown directive name")

/-- Read a directive with its line. -/
def directive (s : Scanner) : Except Failure Scanner := do
  let s ← (s.closeTo (-1)).dropPlace
  let (t, c) ← directiveBody s.cursor
  let c := c.skipBlanks.skipComment
  if !c.atBreakOrEnd then
    throw (.malformedToken "did not find expected comment or line break")
  return { s.push t with cursor := c.skipBreak, keyAllowed := false }

/-! ### Scanning -/

/-- Move to the next token over blanks, comments and line breaks. In blocks, a new line may start a
key, and tabs do not indent. -/
def skipToToken : Nat → Scanner → Scanner
  | 0, s => s
  | fuel + 1, s =>
    let c := s.cursor
    let c := if c.column == 0 && c.isAt byteOrderMark then c.skip 1 else c
    let tabs := s.flowLevel > 0 || !s.keyAllowed
    let c := (c.skipWhile (fun ch => ch == ' ' || (tabs && ch == '\t'))).skipComment
    if c.holds isBreak then
      skipToToken fuel
        { s with cursor := c.skipBreak, keyAllowed := s.keyAllowed || s.flowLevel = 0 }
    else { s with cursor := c }

/-- End of the text: all blocks are closed. -/
def finish (s : Scanner) : Except Failure Scanner := (s.closeTo (-1)).dropPlace

/-- Whether a plain scalar may start with this character, given what comes next. -/
def startsPlain (flow : Bool) (ch : Char) (next : Option Char) : Bool :=
  if ch == '-' then !next.any isBlank
  else if ch == '?' || ch == ':' then !flow && !isSpacingOrEnd next
  else !(isSpacing ch || ",[]\x7b\x7d#&*!|>'\"%@`".toList.contains ch)

/-- Read the token at the cursor. -/
def token (s : Scanner) (ch : Char) : Except Failure Scanner := do
  let c := s.cursor
  let flow := s.flowLevel > 0
  let spaced := isSpacingOrEnd (c.peekAt 1)
  if c.column = 0 ∧ ch = '%' then s.directive
  else if c.atDocumentMark '-' then s.documentMark .documentStart
  else if c.atDocumentMark '.' then s.documentMark .documentEnd
  else if ch = '[' then s.openFlow .openSequence
  else if ch = '\x7b' then s.openFlow .openMapping
  else if ch = ']' then s.closeFlow .closeSequence
  else if ch = '\x7d' then s.closeFlow .closeMapping
  else if ch = ',' then s.flowComma
  else if ch = '-' ∧ spaced then s.dash
  else if ch = '?' ∧ (flow ∨ spaced) then s.questionMark
  else if ch = ':' ∧ (flow ∨ spaced) then s.colon
  else if ch = '*' ∨ ch = '&' then
    let s ← s.savePlace
    let (name, c) ← anchorName c
    return { s.push (if ch = '*' then .alias name else .anchor name) with
      cursor := c, keyAllowed := false }
  else if ch = '!' then
    let s ← s.savePlace
    let (handle, suffix, c) ← tagText flow c
    return { s.push (.tag handle suffix) with cursor := c, keyAllowed := false }
  else if (ch = '|' ∨ ch = '>') ∧ !flow then
    let s ← s.dropPlace
    let (text, c) ← blockScalar (ch = '|') s.indent c
    return { s.push (.scalar false (String.ofList text)) with cursor := c, keyAllowed := true }
  else if ch = '\'' ∨ ch = '"' then
    let s ← s.savePlace
    let (text, c) ← quotedScalar (ch = '\'') c
    return { s.push (.scalar false (String.ofList text)) with cursor := c, keyAllowed := false }
  else if startsPlain flow ch (c.peekAt 1) then
    let s ← s.savePlace
    let p ← plainScalar flow s.indent c
    return { s.push (.scalar true (String.ofList p.text)) with
      cursor := p.next, keyAllowed := p.broken }
  else throw (.malformedToken "found character that cannot start any token")

/-- Read tokens to the end of the text; each takes at least one character. -/
def run : Nat → Scanner → Except Failure Scanner
  | 0, s => .ok s
  | fuel + 1, s => do
    let s := skipToToken (s.cursor.rest.length + 1) s
    let s ← s.dropStale
    let s := s.closeTo s.cursor.column
    match s.cursor.peek with
    | none => s.finish
    | some ch => run fuel (← s.token ch)

end Scanner

/-- The tokens of a text. A byte order mark at its start is no part of it. -/
def tokens (text : String) : Except Failure (List Token) := do
  let cs := text.toList
  let cs := if cs.head? == some byteOrderMark then cs.drop 1 else cs
  if !cs.all isReadable then throw .unreadableCharacter
  let s ← Scanner.run (cs.length + 2) { cursor := Cursor.start cs }
  return s.tokens.toList

end Yaml

end Cookbook
