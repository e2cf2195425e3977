import Cookbook.Text.Blank
import Cookbook.Text.CaseFolding
import Cookbook.Text.Category

/-!
# Regular expressions

An expression matches parts of a text. A place in the text is the character before it and the
characters from there on; an expression leads from a place to the places where its match may end.
All of them are followed at once, so nothing depends on an order of trying.

## Main definitions

* `CharClass`: sets of characters.
* `Regex`: the expressions.
* `Regex.ends`: where matches that start at a place may end.
* `Regex.occursIn`: whether a text has a match somewhere.
-/

namespace Cookbook

/-- A set of characters. -/
inductive CharClass where
  /-- The characters between two, both included. -/
  | range (low high : Char)
  /-- The characters that pass a test. -/
  | test (p : Char → Bool)
  /-- The characters not in a set. -/
  | complement (s : CharClass)
  /-- The characters in one of two sets. -/
  | union (s t : CharClass)
  /-- The characters in both of two sets. -/
  | inter (s t : CharClass)

namespace CharClass

/-- Whether a character is in a set. -/
def has : CharClass → Char → Bool
  | range low high, c => low.toNat ≤ c.toNat && c.toNat ≤ high.toNat
  | test p, c => p c
  | complement s, c => !s.has c
  | union s t, c => s.has c || t.has c
  | inter s t, c => s.has c && t.has c

/-- One character. -/
def single (c : Char) : CharClass := range c c

/-- No character. -/
def none : CharClass := test fun _ => false

/-- All characters. -/
def all : CharClass := test fun _ => true

/-- A set with all that equals one of its characters when case does not count. -/
def ignoringCase (s : CharClass) : CharClass :=
  test fun c => s.has c || (Text.caseVariants c).any s.has

end CharClass

/-- A condition on a place in a text. -/
inductive Regex.Anchor where
  /-- The start of the text. -/
  | start
  /-- The end of the text. -/
  | stop
  /-- The start of a line. -/
  | lineStart
  /-- The end of a line. -/
  | lineEnd
  /-- Between a character of a word and another one. -/
  | boundary
  /-- Not between a character of a word and another one. -/
  | interior
  /-- The start of a word. -/
  | wordStart
  /-- The end of a word. -/
  | wordEnd
  /-- Not right after a character of a word. -/
  | afterOther
  /-- Not right before a character of a word. -/
  | beforeOther
  deriving DecidableEq, Repr

/-- A regular expression. -/
inductive Regex where
  /-- Matches the empty text. -/
  | empty
  /-- Matches a character of a set. -/
  | one (s : CharClass)
  /-- Matches the empty text at some places. -/
  | anchor (a : Regex.Anchor)
  /-- Matches one after the other. -/
  | both (r s : Regex)
  /-- Matches what either matches. -/
  | either (r s : Regex)
  /-- Matches any number of times. -/
  | star (r : Regex)

namespace Regex

/-- A place in a text. -/
structure Place where
  /-- The character before it. -/
  before : Option Char
  /-- The characters from there on. -/
  after : List Char

namespace Anchor

/-- Whether a condition is met at a place. -/
def holds (a : Anchor) (p : Place) : Bool :=
  let left := p.before.any Text.isWord
  let right := p.after.head?.any Text.isWord
  match a with
  | start => p.before.isNone
  | stop => p.after.isEmpty
  | lineStart => p.before.all (· == '\n')
  | lineEnd => p.after.head?.all (· == '\n')
  | boundary => left != right
  | interior => left == right
  | wordStart => !left && right
  | wordEnd => left && !right
  | afterOther => !left
  | beforeOther => !right

end Anchor

/-- Places of which no two are the same distance from the end. -/
def distinctPlaces (ps : List Place) : List Place :=
  ps.foldl (fun found p =>
    if found.any (fun q => q.after.length == p.after.length) then found else found ++ [p]) []

/-- The places that steps from some places lead to, each of which takes a character. -/
def iterate (step : Place → List Place) : Nat → List Place → List Place
  | 0, ps => ps
  | fuel + 1, ps =>
    let next := distinctPlaces (ps.flatMap fun p =>
      (step p).filter (fun q => q.after.length < p.after.length))
    if next.isEmpty then ps else ps ++ iterate step fuel next

/-- The places where a match that starts at a place may end. -/
def ends : Regex → Place → List Place
  | empty, p => [p]
  | one s, p =>
    match p.after with
    | [] => []
    | c :: rest => if s.has c then [⟨some c, rest⟩] else []
  | anchor a, p => if a.holds p then [p] else []
  | both r s, p => distinctPlaces ((ends r p).flatMap (ends s))
  | either r s, p => distinctPlaces (ends r p ++ ends s p)
  | star r, p => distinctPlaces (iterate (ends r) p.after.length [p])

/-- Whether a match starts at a place or after it. -/
def occursFrom (r : Regex) (before : Option Char) : List Char → Bool
  | [] => !(r.ends ⟨before, []⟩).isEmpty
  | c :: rest => !(r.ends ⟨before, c :: rest⟩).isEmpty || occursFrom r (some c) rest

/-- Whether a text has a match somewhere. -/
def occursIn (r : Regex) (s : String) : Bool := r.occursFrom none s.toList

/-- The number of parts of an expression. -/
def size : Regex → Nat
  | empty | one _ | anchor _ => 1
  | both r s | either r s => r.size + s.size + 1
  | star r => r.size + 1

/-- An expression a number of times. -/
def times (r : Regex) : Nat → Regex
  | 0 => empty
  | n + 1 => both r (times r n)

/-- An expression up to a number of times. -/
def upTo (r : Regex) : Nat → Regex
  | 0 => empty
  | n + 1 => either empty (both r (upTo r n))

end Regex

end Cookbook
