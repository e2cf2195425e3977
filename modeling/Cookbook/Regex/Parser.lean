import Cookbook.Regex.Basic
import Cookbook.Yaml.Character

/-!
# The notation of regular expressions

Expressions are written with `|`, repetition, groups, sets in brackets, anchors and escapes. Flags
in a group (`(?i)` and so on) hold up to the end of the group they are in. Look-around and
references to groups are not part of the notation.

A reader takes the characters that are left and gives what it read with the characters after it, or
nothing if they are malformed.

## Main definitions

* `Regex.Flags`, `Regex.Scope`: what the notation means where it depends on what is before it.
* `Regex.parse?`: the expression that a text is the notation of.
* `Regex.escape`: the notation of an expression for a text itself.
-/

namespace Cookbook

namespace Regex

/-- The flags that change the meaning of the notation. -/
structure Flags where
  /-- Case does not count. -/
  ignoreCase : Bool := false
  /-- `^` and `$` are the start and end of a line. -/
  multiLine : Bool := false
  /-- `.` matches a line break as well. -/
  dotAll : Bool := false
  /-- White space and comments do not count. -/
  verbose : Bool := false

/-- Drop white space and comments where they do not count. -/
def skip (flags : Flags) : Nat → List Char → List Char
  | 0, cs => cs
  | fuel + 1, cs =>
    if flags.verbose then
      match cs.dropWhile Text.isWhite with
      | '#' :: rest => skip flags fuel (rest.dropWhile (· != '\n'))
      | rest => rest
    else cs

/-- A set as the flags have it. -/
def Flags.set (flags : Flags) (s : CharClass) : CharClass :=
  if flags.ignoreCase then s.ignoringCase else s

/-! ### Numbers -/

/-- The number that decimal digits stand for. -/
def decimal (ds : List Char) : Nat := ds.foldl (fun n d => 10 * n + (d.toNat - '0'.toNat)) 0

/-- The decimal digits at the front, and what is left. -/
def leadingDigits (flags : Flags) : Nat → List Char → List Char × List Char
  | fuel + 1, c :: rest =>
    if c.isDigit then
      let (ds, rest) := leadingDigits flags fuel (skip flags rest.length rest)
      (c :: ds, rest)
    else ([], c :: rest)
  | _, cs => ([], cs)

/-- A number of 32 bits with white space around it. -/
def count? (flags : Flags) (cs : List Char) : Option (Nat × List Char) :=
  let (ds, rest) := leadingDigits flags cs.length (cs.dropWhile Text.isWhite)
  if ds.isEmpty || decimal ds ≥ Nat.pow 2 32 then none
  else some (decimal ds, rest.dropWhile Text.isWhite)

/-- The character with a number. -/
def charOf? (n : Nat) : Option Char := if n.isValidChar then some (Char.ofNat n) else none

/-- A character by a number of hexadecimal digits, or by any number of them in braces. -/
def hexChar? (digits : Nat) (cs : List Char) : Option (Char × List Char) :=
  match cs with
  | '\x7b' :: rest =>
    let ds := rest.takeWhile (· != '\x7d')
    match ds, rest.dropWhile (· != '\x7d') with
    | _ :: _, _ :: rest => ((Yaml.hexValue? ds).bind charOf?).map (·, rest)
    | _, _ => none
  | cs =>
    if cs.length < digits then none
    else ((Yaml.hexValue? (cs.take digits)).bind charOf?).map (·, cs.drop digits)

/-! ### Sets with names -/

/-- The characters of some categories. -/
def ofCategories (l : List Text.Run) : CharClass := .test fun c => l.contains (Text.category c)

/-- The categories with a short or a long name. -/
def categories? : String → Option (List Text.Run)
  | "lu" | "uppercaseletter" => some [.lu]
  | "ll" | "lowercaseletter" => some [.ll]
  | "lt" | "titlecaseletter" => some [.lt]
  | "lc" | "casedletter" => some [.lu, .ll, .lt]
  | "lm" | "modifierletter" => some [.lm]
  | "lo" | "otherletter" => some [.lo]
  | "l" | "letter" => some [.lu, .ll, .lt, .lm, .lo]
  | "mn" | "nonspacingmark" => some [.mn]
  | "mc" | "spacingmark" => some [.mc]
  | "me" | "enclosingmark" => some [.me]
  | "m" | "mark" => some [.mn, .mc, .me]
  | "nd" | "decimalnumber" | "digit" => some [.nd]
  | "nl" | "letternumber" => some [.nl]
  | "no" | "othernumber" => some [.no]
  | "n" | "number" => some [.nd, .nl, .no]
  | "pc" | "connectorpunctuation" => some [.pc]
  | "pd" | "dashpunctuation" => some [.pd]
  | "ps" | "openpunctuation" => some [.ps]
  | "pe" | "closepunctuation" => some [.pe]
  | "pi" | "initialpunctuation" => some [.pi]
  | "pf" | "finalpunctuation" => some [.pf]
  | "po" | "otherpunctuation" => some [.po]
  | "p" | "punctuation" | "punct" => some [.pc, .pd, .ps, .pe, .pi, .pf, .po]
  | "sm" | "mathsymbol" => some [.sm]
  | "sc" | "currencysymbol" => some [.sc]
  | "sk" | "modifiersymbol" => some [.sk]
  | "so" | "othersymbol" => some [.so]
  | "s" | "symbol" => some [.sm, .sc, .sk, .so]
  | "zs" | "spaceseparator" => some [.zs]
  | "zl" | "lineseparator" => some [.zl]
  | "zp" | "paragraphseparator" => some [.zp]
  | "z" | "separator" => some [.zs, .zl, .zp]
  | "cc" | "control" | "cntrl" => some [.cc]
  | "cf" | "format" => some [.cf]
  | "cs" | "surrogate" => some [.cs]
  | "co" | "privateuse" => some [.co]
  | "cn" | "unassigned" => some [.cn]
  | "c" | "other" => some [.cc, .cf, .cs, .co, .cn]
  | _ => none

/-- The name of a property without what does not count in it: case, separators and `is` in front. -/
def plainName (name : List Char) : String :=
  let lower := name.map Char.toLower
  let rest := match lower with
    | 'i' :: 's' :: rest => rest
    | cs => cs
  let counts (c : Char) : Bool := c.toNat < 128 && c != ' ' && c != '_' && c != '-'
  match String.ofList (rest.filter counts) with
  | "c" => if rest.length < lower.length then "isc" else "c"
  | s => s

/-- The set of general categories with a name. -/
def generalCategory? : String → Option CharClass
  | "any" => some .all
  | "ascii" => some (.range (Char.ofNat 0) '\x7f')
  | "assigned" => some (.complement (ofCategories [.cn]))
  | s => (categories? s).map ofCategories

/-- The set of a property by its name. -/
def property? (name : List Char) : Option CharClass :=
  match plainName name with
  | "whitespace" | "wspace" | "space" => some (.test Text.isWhite)
  | s => generalCategory? s

/-- The set of a property by its name and value. -/
def propertyValue? (name value : List Char) : Option CharClass :=
  match plainName name with
  | "gc" | "generalcategory" => generalCategory? (plainName value)
  | _ => none

/-- The set of a property as it is written in braces: a name, or a name and a value. -/
def propertyText? (flags : Flags) (text : List Char) : Option CharClass :=
  let name := text.takeWhile (fun c => c != ':' && c != '=')
  match text.drop name.length with
  | [] => flags.set <$> property? text
  | mark :: value =>
    if mark = '=' ∧ name.getLast? = some '!' then
      CharClass.complement <$> flags.set <$> propertyValue? name.dropLast value
    else flags.set <$> propertyValue? name value

/-- The set of a property, after `\p`. -/
def propertyEscape? (flags : Flags) : List Char → Option (CharClass × List Char)
  | '\x7b' :: rest => do
    let text := rest.takeWhile (· != '\x7d')
    let _ :: rest := rest.dropWhile (· != '\x7d') | none
    return (← propertyText? flags text, rest)
  | c :: rest => (property? [c]).map fun s => (flags.set s, rest)
  | [] => none

/-- The ASCII characters of a class by its name. -/
def asciiClass? (name : String) : Option CharClass :=
  let letters : CharClass := .union (.range 'a' 'z') (.range 'A' 'Z')
  let digits : CharClass := .range '0' '9'
  match name with
  | "alnum" => some (.union letters digits)
  | "alpha" => some letters
  | "ascii" => some (.range (Char.ofNat 0) '\x7f')
  | "blank" => some (.union (.single ' ') (.single '\t'))
  | "cntrl" => some (.union (.range (Char.ofNat 0) '\x1f') (.single '\x7f'))
  | "digit" => some digits
  | "graph" => some (.range '!' '~')
  | "lower" => some (.range 'a' 'z')
  | "print" => some (.range ' ' '~')
  | "punct" => some (.union (.union (.range '!' '/') (.range ':' '@'))
      (.union (.range '[' (Char.ofNat 0x60)) (.range '\x7b' '~')))
  | "space" => some (.union (.range '\t' '\r') (.single ' '))
  | "upper" => some (.range 'A' 'Z')
  | "word" => some (.union (.union letters digits) (.single '_'))
  | "xdigit" => some (.union digits (.union (.range 'a' 'f') (.range 'A' 'F')))
  | _ => none

/-! ### Escapes -/

/-- What an escape stands for. -/
inductive Escape where
  /-- A character. -/
  | char (c : Char)
  /-- A set of characters. -/
  | set (s : CharClass)
  /-- A condition on the place. -/
  | anchor (a : Anchor)

/-- Whether a character stands for itself after a backslash. -/
def isPlainEscape (c : Char) : Bool :=
  c.toNat < 128 && !c.isAlphanum && c != '<' && c != '>'

/-- The condition that `\b` stands for, with its name in braces if it has one. -/
def boundary (cs : List Char) : Anchor × List Char :=
  match cs with
  | '\x7b' :: rest =>
    match String.ofList (rest.takeWhile (· != '\x7d')), rest.dropWhile (· != '\x7d') with
    | "start", _ :: after => (.wordStart, after)
    | "end", _ :: after => (.wordEnd, after)
    | "start-half", _ :: after => (.afterOther, after)
    | "end-half", _ :: after => (.beforeOther, after)
    | _, _ => (.boundary, cs)
  | cs => (.boundary, cs)

/-- An escape, after its backslash. -/
def escape? (flags : Flags) : List Char → Option (Escape × List Char)
  | [] => none
  | c :: rest =>
    match c with
    | 'd' => some (.set (.test Text.isDigit), rest)
    | 'D' => some (.set (.complement (.test Text.isDigit)), rest)
    | 's' => some (.set (.test Text.isWhite), rest)
    | 'S' => some (.set (.complement (.test Text.isWhite)), rest)
    | 'w' => some (.set (.test Text.isWord), rest)
    | 'W' => some (.set (.complement (.test Text.isWord)), rest)
    | 'p' => (propertyEscape? flags rest).map fun (s, rest) => (.set s, rest)
    | 'P' => (propertyEscape? flags rest).map fun (s, rest) => (.set (.complement s), rest)
    | 'x' => (hexChar? 2 rest).map fun (c, rest) => (.char c, rest)
    | 'u' => (hexChar? 4 rest).map fun (c, rest) => (.char c, rest)
    | 'U' => (hexChar? 8 rest).map fun (c, rest) => (.char c, rest)
    | 'a' => some (.char '\x07', rest)
    | 'f' => some (.char '\x0c', rest)
    | 't' => some (.char '\t', rest)
    | 'n' => some (.char '\n', rest)
    | 'r' => some (.char '\r', rest)
    | 'v' => some (.char '\x0b', rest)
    | 'A' => some (.anchor .start, rest)
    | 'z' => some (.anchor .stop, rest)
    | 'b' => let (a, rest) := boundary rest; some (.anchor a, rest)
    | 'B' => some (.anchor .interior, rest)
    | '<' => some (.anchor .wordStart, rest)
    | '>' => some (.anchor .wordEnd, rest)
    | c => if isPlainEscape c then some (.char c, rest) else none

/-! ### Sets in brackets -/

/-- A character or an escape inside brackets. -/
def setItem? (flags : Flags) : List Char → Option (Escape × List Char)
  | [] => none
  | '\\' :: rest => escape? flags rest
  | c :: rest => some (.char c, rest)

/-- A character, an escaped set or a range inside brackets. -/
def setRange? (flags : Flags) (cs : List Char) : Option (CharClass × List Char) := do
  let (low, rest) ← setItem? flags cs
  let rest := skip flags rest.length rest
  let single : Option (CharClass × List Char) :=
    match low with
    | .char c => some (flags.set (.single c), rest)
    | .set s => some (s, rest)
    | .anchor _ => none
  match rest with
  | [] => none
  | '-' :: more =>
    let more := skip flags more.length more
    if more.head? == some ']' || more.head? == some '-' then single
    else
      let (high, rest) ← setItem? flags more
      match low, high with
      | .char a, .char b => if a.toNat ≤ b.toNat then some (flags.set (.range a b), rest) else none
      | _, _ => none
  | _ => single

/-- A named ASCII class inside brackets, after its opening bracket. -/
def namedClass? (flags : Flags) (cs : List Char) : Option (CharClass × List Char) := do
  let ':' :: rest := cs | none
  let (negated, rest) := match rest with
    | '^' :: rest => (true, rest)
    | rest => (false, rest)
  let ':' :: ']' :: after := rest.dropWhile (· != ':') | none
  let s := flags.set (← asciiClass? (String.ofList (rest.takeWhile (· != ':'))))
  return (if negated then .complement s else s, after)

/-- How two sets are put together inside brackets. -/
inductive SetOperator where
  /-- What is in both. -/
  | inter
  /-- What is in the first alone. -/
  | difference
  /-- What is in just one of them. -/
  | symmetric

/-- Put two sets together. -/
def SetOperator.apply : SetOperator → CharClass → CharClass → CharClass
  | inter, s, t => .inter s t
  | difference, s, t => .inter s (.complement t)
  | symmetric, s, t => .union (.inter s (.complement t)) (.inter t (.complement s))

/-- The operator at the front. -/
def setOperator? : List Char → Option (SetOperator × List Char)
  | '&' :: '&' :: rest => some (.inter, rest)
  | '-' :: '-' :: rest => some (.difference, rest)
  | '~' :: '~' :: rest => some (.symmetric, rest)
  | _ => none

/-- The hyphens and the closing bracket at the front of a set, which stand for themselves. -/
def leading (cs : List Char) : CharClass × List Char :=
  let rest := cs.dropWhile (· == '-')
  if rest.length < cs.length then (.single '-', rest)
  else match cs with
    | ']' :: rest => (.single ']', rest)
    | cs => (.none, cs)

mutual

/-- A set in brackets, after its opening bracket. -/
def set? (flags : Flags) : Nat → List Char → Option (CharClass × List Char)
  | 0, _ => none
  | fuel + 1, cs => do
    let (negated, cs) := match skip flags cs.length cs with
      | '^' :: rest => (true, rest)
      | cs => (false, cs)
    let (s, cs) := leading (skip flags cs.length cs)
    let (s, rest) ← setBody? flags fuel none s cs
    return (if negated then .complement s else s, rest)

/-- The rest of a set in brackets: `s` is what was read since the last operator, which `earlier` has
with its left side. -/
def setBody? (flags : Flags) :
    Nat → Option (CharClass × SetOperator) → CharClass → List Char → Option (CharClass × List Char)
  | 0, _, _, _ => none
  | fuel + 1, earlier, s, cs =>
    let whole := match earlier with
      | some (t, op) => op.apply t s
      | none => s
    let cs := skip flags cs.length cs
    match setOperator? cs with
    | some (op, rest) => setBody? flags fuel (some (whole, op)) .none rest
    | none =>
      match cs with
      | [] => none
      | ']' :: rest => some (whole, rest)
      | '[' :: rest =>
        match namedClass? flags rest with
        | some (t, rest) => setBody? flags fuel earlier (.union s t) rest
        | none => do
          let (t, rest) ← set? flags fuel rest
          setBody? flags fuel earlier (.union s t) rest
      | cs => do
        let (t, rest) ← setRange? flags cs
        setBody? flags fuel earlier (.union s t) rest

end

/-! ### Repetition -/

/-- A counted repetition, after its opening brace: the least count and the greatest, if there is
one. -/
def counts? (flags : Flags) (cs : List Char) : Option (Nat × Option Nat × List Char) := do
  let (low, rest) ← count? flags (skip flags cs.length cs)
  match rest with
  | '\x7d' :: rest => return (low, some low, rest)
  | ',' :: rest =>
    match skip flags rest.length rest with
    | '\x7d' :: rest => return (low, none, rest)
    | rest =>
      let (high, rest) ← count? flags rest
      let '\x7d' :: rest := rest | none
      if low ≤ high then return (low, some high, rest) else none
  | _ => none

/-- The greatest number of parts that an expression may have when its repetitions are written out.
-/
def sizeBound : Nat := 300000

/-- Drop the mark that asks for the fewest repetitions; it does not change what is matched. -/
def dropLazy : List Char → List Char
  | '?' :: rest => rest
  | cs => cs

/-- An expression with the repetitions after it. -/
def repeated? (flags : Flags) : Nat → Regex → List Char → Option (Regex × List Char)
  | 0, _, _ => none
  | fuel + 1, r, cs =>
    match skip flags cs.length cs with
    | '*' :: rest => repeated? flags fuel (.star r) (dropLazy rest)
    | '+' :: rest => repeated? flags fuel (.both r (.star r)) (dropLazy rest)
    | '?' :: rest => repeated? flags fuel (.either .empty r) (dropLazy rest)
    | '\x7b' :: rest => do
      let (low, high, rest) ← counts? flags rest
      if r.size * high.getD low > sizeBound then none
      let rest := skip flags rest.length rest
      let more := match high with
        | some high => r.upTo (high - low)
        | none => .star r
      repeated? flags fuel (.both (r.times low) more) (dropLazy rest)
    | rest => some (r, rest)

/-! ### Groups -/

/-- Set or clear a flag by its letter. Some letters have no bearing on what is matched. -/
def setFlag? (flags : Flags) (on : Bool) : Char → Option Flags
  | 'i' => some { flags with ignoreCase := on }
  | 'm' => some { flags with multiLine := on }
  | 's' => some { flags with dotAll := on }
  | 'x' => some { flags with verbose := on }
  | 'U' => some flags
  | 'u' => if on then some flags else none
  | _ => none

/-- The letters of flags up to `:` or `)`: the flags, and whether it was `:`. Each letter may be
there once, and after a hyphen there has to be one. -/
def flagLetters? (flags : Flags) (on : Bool) (seen : List Char) :
    List Char → Option (Flags × Bool × List Char)
  | [] => none
  | c :: rest =>
    if c = ':' ∨ c = ')' then
      if seen.head? == some '-' || (c = ')' && seen.isEmpty) then none
      else some (flags, c = ':', rest)
    else if seen.contains c then none
    else if c = '-' then flagLetters? flags false (c :: seen) rest
    else (setFlag? flags on c).bind fun flags => flagLetters? flags on (c :: seen) rest

/-- The name of a group up to `>`. -/
def groupName? (cs : List Char) : Option (List Char × List Char) :=
  let name := cs.takeWhile (· != '>')
  let isFirst (c : Char) : Bool := c == '_' || Text.isWord c && !Text.isDigit c
  let isNext (c : Char) : Bool := isFirst c || Text.isDigit c || c == '.' || c == '[' || c == ']'
  match name, cs.dropWhile (· != '>') with
  | c :: more, _ :: rest => if isFirst c && more.all isNext then some (name, rest) else none
  | _, _ => none

/-- What holds at a place in the notation. -/
structure Scope where
  /-- The flags. -/
  flags : Flags := {}
  /-- The names of the groups so far; no two groups have the same one. -/
  names : List (List Char) := []

mutual

/-- The alternatives up to a closing parenthesis or the end, with the scope there. -/
def alternatives? : Nat → Scope → List Char → Option (Regex × Scope × List Char)
  | 0, _, _ => none
  | fuel + 1, scope, cs => do
    let (r, scope, rest) ← sequence? fuel scope cs
    match rest with
    | '|' :: rest =>
      let (s, scope, rest) ← alternatives? fuel scope rest
      return (.either r s, scope, rest)
    | rest => return (r, scope, rest)

/-- What follows one another in an alternative, with the scope at its end. -/
def sequence? : Nat → Scope → List Char → Option (Regex × Scope × List Char)
  | 0, _, _ => none
  | fuel + 1, scope, cs =>
    match skip scope.flags cs.length cs with
    | [] => some (.empty, scope, [])
    | '|' :: rest => some (.empty, scope, '|' :: rest)
    | ')' :: rest => some (.empty, scope, ')' :: rest)
    | '(' :: rest => do
      let (isGroup, inner, rest) ← groupStart? scope (skip scope.flags rest.length rest)
      if isGroup then
        let (r, inner, rest) ← alternatives? fuel inner rest
        let ')' :: rest := rest | none
        let (r, rest) ← repeated? scope.flags rest.length.succ r rest
        let (s, scope, rest) ← sequence? fuel { scope with names := inner.names } rest
        return (.both r s, scope, rest)
      else sequence? fuel inner rest
    | cs => do
      let (r, rest) ← atom? scope.flags cs
      let (r, rest) ← repeated? scope.flags rest.length.succ r rest
      let (s, scope, rest) ← sequence? fuel scope rest
      return (.both r s, scope, rest)
where
  /-- The start of a group after its parenthesis: whether there is a group at all or flags alone,
  the scope inside, and the rest. -/
  groupStart? (scope : Scope) (cs : List Char) : Option (Bool × Scope × List Char) :=
    match cs with
    | '?' :: 'P' :: '<' :: rest => namedGroup? scope rest
    | '?' :: '<' :: rest => namedGroup? scope rest
    | '?' :: rest =>
      (flagLetters? scope.flags true [] rest).map fun (flags, isGroup, rest) =>
        (isGroup, { scope with flags }, rest)
    | cs => some (true, scope, cs)
  /-- The start of a group with a name. -/
  namedGroup? (scope : Scope) (cs : List Char) : Option (Bool × Scope × List Char) := do
    let (name, rest) ← groupName? cs
    if scope.names.contains name then none
    else return (true, { scope with names := name :: scope.names }, rest)
  /-- A single character, set or condition. -/
  atom? (flags : Flags) (cs : List Char) : Option (Regex × List Char) :=
    match cs with
    | [] => none
    | '[' :: rest => (set? flags (2 * rest.length + 2) rest).map fun (s, rest) => (.one s, rest)
    | '.' :: rest =>
      some (.one (if flags.dotAll then .all else .complement (.single '\n')), rest)
    | '^' :: rest => some (.anchor (if flags.multiLine then .lineStart else .start), rest)
    | '$' :: rest => some (.anchor (if flags.multiLine then .lineEnd else .stop), rest)
    | '\\' :: rest => (escape? flags rest).map fun
      | (.char c, rest) => (.one (flags.set (.single c)), rest)
      | (.set s, rest) => (.one s, rest)
      | (.anchor a, rest) => (.anchor a, rest)
    | c :: rest =>
      if ['*', '+', '?', '\x7b'].contains c then none
      else some (.one (flags.set (.single c)), rest)

end

/-- The expression that a text is the notation of. -/
def parse? (s : String) : Option Regex := do
  let (r, _, rest) ← alternatives? (3 * s.length + 3) {} s.toList
  if rest.isEmpty then some r else none

/-! ### Writing -/

/-- Whether a character may mean something else than itself in the notation. -/
def isMeta (c : Char) : Bool :=
  c ∈ ['\\', '.', '+', '*', '?', '(', ')', '|', '[', ']', '\x7b', '\x7d', '^', '$', '#', '&', '-',
    '~']

/-- The notation for characters themselves. -/
def escapeChars (cs : List Char) : List Char :=
  cs.flatMap fun c => if isMeta c then ['\\', c] else [c]

/-- The notation for a text itself. -/
def escape (s : String) : String := String.ofList (escapeChars s.toList)

end Regex

end Cookbook
