import Cookbook.Yaml.Scalar
import Cookbook.Yaml.Error
import Cookbook.Binary64.Shortest

/-!
# Writing documents

A value is written in block form: an entry or an item to a line, two columns of indentation for a
nested mapping, none for a sequence below a key. A string is written plainly where that reads back
as the string, as a block if it has several lines, and otherwise in quotes. A key that is long, has
several lines or is a collection gets a question mark and its value a line of its own.

The writer knows its column, whether it has just written spacing, and whether it has written
nothing but indentation on this line; these decide where spaces and line breaks go.

## Main definitions

* `Yaml.ScalarStyle.ofString`: how a string is written.
* `Yaml.print`: the text of a value.
-/

namespace Cookbook

namespace Yaml

/-! ### The style of scalars -/

/-- How a scalar is written. -/
inductive ScalarStyle where
  /-- Without marks. -/
  | plain
  /-- In single quotes. -/
  | single
  /-- In double quotes, with escapes. -/
  | double
  /-- As a block of lines. -/
  | block
  deriving DecidableEq, Repr

/-- What the characters of a string allow. -/
structure Allowance where
  /-- It has a line break. -/
  multiline : Bool
  /-- It may be written plainly. -/
  plain : Bool
  /-- It may be written in single quotes. -/
  single : Bool
  /-- It may be written as a block. -/
  block : Bool

/-- Whether some neighbours in a list are related. -/
def anyNeighbours (r : Char → Char → Bool) : List Char → Bool
  | a :: b :: rest => r a b || anyNeighbours r (b :: rest)
  | _ => false

/-- Whether an indicator stands where it would be read as one: at the start, a colon before spacing
or a hash after it. -/
def hasIndicator (cs : List Char) : Bool :=
  let start := match cs with
    | [] => false
    | c :: rest =>
      "#,[]\x7b\x7d&*!|>'\"%@`".toList.contains c
        || ("?:-".toList.contains c && isSpacingOrEnd rest.head?)
  let mark (m : Char) : Bool := cs.take 3 == [m, m, m]
  let tail := cs.drop 1
  start || mark '-' || mark '.'
    || tail.getLast? == some ':'
    || anyNeighbours (fun a b => a == ':' && isSpacing b) tail
    || anyNeighbours (fun a b => isSpacing a && b == '#') cs

/-- What the characters of a string allow. -/
def Allowance.ofChars (cs : List Char) : Allowance :=
  if cs.isEmpty then ⟨false, true, true, false⟩
  else
    let multiline := cs.any isBreak
    let special := cs.any (fun c => !isPrintable c)
    let edge (c : Option Char) : Bool := c.any (fun c => c == ' ' || isBreak c)
    let breakSpace := anyNeighbours (fun a b => isBreak a && b == ' ') cs
    let spaceBreak := anyNeighbours (fun a b => a == ' ' && isBreak b) cs
    { multiline
      plain := !(edge cs.head? || edge cs.getLast? || breakSpace || spaceBreak || special
        || multiline || hasIndicator cs)
      single := !(breakSpace || spaceBreak || special)
      block := !(cs.getLast? == some ' ' || spaceBreak || special) }

/-- How a string is written. -/
def ScalarStyle.ofString (s : String) : ScalarStyle :=
  let cs := s.toList
  let allowed := Allowance.ofChars cs
  let quoted := if allowed.single then .single else .double
  if cs.contains '\n' then if allowed.block then .block else .double
  else if Plain.isAmbiguous s || !allowed.plain then quoted
  else .plain

/-! ### The writer -/

/-- What has been written. -/
structure Writer where
  /-- The text. -/
  text : String := ""
  /-- The number of characters on the last line. -/
  column : Nat := 0
  /-- Whether it ends in spacing. -/
  spaced : Bool := true
  /-- Whether the last line has only indentation. -/
  indented : Bool := true

namespace Writer

/-- Write characters of one line. -/
def put (w : Writer) (s : String) : Writer :=
  { w with text := w.text ++ s, column := w.column + s.length }

/-- Write a line break. -/
def newline (w : Writer) : Writer := { w with text := w.text.push '\n', column := 0 }

/-- Write a line break that is part of a scalar. -/
def putBreak (w : Writer) (c : Char) : Writer :=
  { w with text := w.text.push c, column := 0, indented := true }

/-- Go to a column, on a new line unless this one has nothing else before that column. -/
def indentTo (w : Writer) (column : Nat) : Writer :=
  let w := if !w.indented || w.column > column || (w.column == column && !w.spaced)
    then w.newline else w
  { w.put (String.ofList (List.replicate (column - w.column) ' ')) with
    spaced := true, indented := true }

/-- Write an indicator, after a space if it needs spacing before it. -/
def indicator (w : Writer) (s : String) (needsSpace spaced indented : Bool) : Writer :=
  let w := if needsSpace && !w.spaced then w.put " " else w
  { w.put s with spaced, indented := w.indented && indented }

/-- Write words that follow others after a space. -/
def putWord (w : Writer) (s : String) : Writer :=
  let w := if w.spaced || s.isEmpty then w else w.put " "
  { w.put s with spaced := false, indented := false }

end Writer

/-! ### Scalars -/

/-- Digits in base sixteen, at least `width` of them. -/
def hexText (width n : Nat) : String :=
  let digits := (Nat.toDigits 16 n).map Char.toUpper
  String.ofList (List.replicate (width - digits.length) '0' ++ digits)

/-- How a character is written in double quotes. -/
def escaped (c : Char) : String :=
  let n := c.toNat
  if c == '"' then "\\\""
  else if c == '\\' then "\\\\"
  else if isPrintable c && !isBreak c then c.toString
  else
    match [(0x00, "\\0"), (0x07, "\\a"), (0x08, "\\b"), (0x09, "\\t"), (0x0A, "\\n"),
      (0x0B, "\\v"), (0x0C, "\\f"), (0x0D, "\\r"), (0x1B, "\\e"), (0x85, "\\N"), (0xA0, "\\_"),
      (0x2028, "\\L"), (0x2029, "\\P")].lookup n with
    | some s => s
    | none =>
      if n ≤ 0xFF then "\\x" ++ hexText 2 n
      else if n ≤ 0xFFFF then "\\u" ++ hexText 4 n
      else "\\U" ++ hexText 8 n

/-- Write the characters between single quotes. A quote is written twice, and the line after a line
break is indented. -/
def putSingle (indent : Nat) : List Char → Bool → Writer → Writer
  | [], broken, w => if broken then w.indentTo indent else w
  | c :: rest, broken, w =>
    if isBreak c then putSingle indent rest true (w.putBreak c)
    else if c == ' ' then putSingle indent rest broken (w.put " ")
    else
      let w := if broken then w.indentTo indent else w
      putSingle indent rest false
        { w.put (if c == '\'' then "''" else c.toString) with indented := false }

/-- Write the lines of a block. -/
def putBlock (indent : Nat) : List Char → Bool → Writer → Writer
  | [], _, w => w
  | c :: rest, broken, w =>
    if isBreak c then putBlock indent rest true (w.putBreak c)
    else
      let w := if broken then w.indentTo indent else w
      putBlock indent rest false { w.put c.toString with indented := false }

/-- The header of a block: the indentation if the block starts with spacing, and what becomes of
the breaks at its end. -/
def blockHints (cs : List Char) : String :=
  let indentation := if cs.head?.any (fun c => c == ' ' || isBreak c) then "2" else ""
  let chomping := match cs.reverse with
    | [] => "-"
    | c :: rest => if !isBreak c then "-" else if rest.head?.all isBreak then "+" else ""
  indentation ++ chomping

/-- Write a string below an indentation level. -/
def putString (s : String) (parent : Int) (w : Writer) : Writer :=
  let indent := if parent < 0 then 2 else parent.toNat + 2
  match ScalarStyle.ofString s with
  | .plain => w.putWord s
  | .single => (putSingle indent s.toList false (w.indicator "'" true false false)).indicator
      "'" false false false
  | .double =>
    ((w.indicator "\"" true false false).put (String.join (s.toList.map escaped))).indicator
      "\"" false false false
  | .block =>
    let w := (w.indicator "|" true false false).put (blockHints s.toList)
    putBlock indent s.toList true { w.newline with spaced := true, indented := true }

/-- The characters of a tag; others are written by their bytes. -/
def tagText (tag : String) : String :=
  let piece (c : Char) : String :=
    if isWord c || ";/?:@&=+$,_.~*'()[]".toList.contains c then c.toString
    else String.join (c.toString.toUTF8.toList.map (fun b => "%" ++ hexText 2 b.toNat))
  String.join (tag.toList.map piece)

/-- The text of a scalar that is no string. -/
def simpleText : Value → String
  | .bool b => if b then "true" else "false"
  | .int n => toString n
  | .float x => x.text
  | _ => "null"

/-! ### Nodes -/

/-- Whether a key may stand before its colon on one line. -/
def isSimpleKey : Value → Bool
  | .tagged tag v => go (1 + tag.utf8ByteSize) v
  | v => go 0 v
where
  /-- The rule for what is below the tag. -/
  go (length : Nat) : Value → Bool
    | .string s => !(s.toList.any isBreak) && length + s.utf8ByteSize ≤ 128
    | .seq items => items.isEmpty && length ≤ 128
    | .map entries => entries.isEmpty && length ≤ 128
    | .tagged .. => false
    | v => length + (simpleText v).utf8ByteSize ≤ 128

/-- The indentation of a collection below a level. -/
def deeper (parent : Int) (level : Bool) : Nat :=
  if parent < 0 then 0 else if level then parent.toNat else parent.toNat + 2

mutual

/-- Write a node below an indentation level; `inMapping` for a key or its value. -/
def putNode (parent : Int) (inMapping : Bool) : Value → Writer → Writer
  | .tagged tag v, w => putNode parent inMapping v (w.putWord ("!" ++ tagText tag))
  | .string s, w => putString s parent w
  | .seq [], w => (w.indicator "[" true true false).indicator "]" false false false
  | .seq (item :: items), w =>
    putItems (deeper parent (inMapping && !w.indented)) (item :: items) w
  | .map [], w => (w.indicator "\x7b" true true false).indicator "\x7d" false false false
  | .map (e :: entries), w => putEntries (deeper parent false) (e :: entries) w
  | v, w => w.putWord (simpleText v)

/-- Write the items of a sequence. -/
def putItems (indent : Nat) : List Value → Writer → Writer
  | [], w => w
  | v :: rest, w =>
    let w := (w.indentTo indent).indicator "-" true false true
    putItems indent rest (putNode indent false v w)

/-- Write the entries of a mapping. -/
def putEntries (indent : Nat) : List (Value × Value) → Writer → Writer
  | [], w => w
  | (k, v) :: rest, w =>
    let w := w.indentTo indent
    let w :=
      if isSimpleKey k then (putNode indent true k w).indicator ":" false false false
      else
        ((putNode indent true k (w.indicator "?" true false true)).indentTo indent).indicator
          ":" true false true
    putEntries indent rest (putNode indent true v w)

end

/-! ### Values without a document -/

mutual

/-- Whether a value can be written. A tag below a tag cannot, and neither can a mapping of a single
entry whose key is tagged or such a mapping itself, since in front of a key it would be taken for
the tag of its value; right below a tag it is safe. -/
def check (tagged : Bool) : Value → Except Failure Unit
  | .tagged _ v =>
    match v with
    | .tagged .. => .error .nestedTag
    | v => check true v
  | .seq items => checkItems items
  | .map [(k, v)] =>
    match tagged, k with
    | false, .tagged .. => .error .ambiguousKey
    | false, .map [_] => .error .ambiguousKey
    | _, _ => do
      check false k
      check false v
  | .map entries => checkEntries entries
  | _ => .ok ()

/-- Whether all items can be written. -/
def checkItems : List Value → Except Failure Unit
  | [] => .ok ()
  | v :: rest => do
    check false v
    checkItems rest

/-- Whether all entries can be written. -/
def checkEntries : List (Value × Value) → Except Failure Unit
  | [] => .ok ()
  | (k, v) :: rest => do
    check false k
    check false v
    checkEntries rest

end

/-- The text of a value. -/
def print (v : Value) : Except Failure String := do
  check false v
  return ((putNode (-1) false v {}).indentTo 0).text

end Yaml

end Cookbook
