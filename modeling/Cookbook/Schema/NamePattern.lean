import Cookbook.Text.Split

/-!
# Patterns for names

A pattern stands for names: `?` for any character, `*` for any characters, a set in brackets for one
of its characters, or for none of them after `!`. Two asterisks have to be a whole step between
slashes and stand for any steps. Everything else stands for itself.

## Main definitions

* `NamePattern.Token`: the parts of a pattern.
* `NamePattern.ofText`: the pattern of a text.
* `NamePattern.fits`: whether a name is one that a pattern stands for.
-/

namespace Cookbook

namespace NamePattern

/-- A part of a pattern. -/
inductive Token where
  /-- A character that stands for itself. -/
  | char (c : Char)
  /-- Any character. -/
  | anyChar
  /-- Any characters. -/
  | anySequence
  /-- Any steps, with the slash after them. -/
  | anySteps
  /-- One of the characters in some ranges. -/
  | within (ranges : List (Char × Char))
  /-- A character that is in none of some ranges. -/
  | except (ranges : List (Char × Char))
  deriving DecidableEq, Repr

/-- The ranges of a set in brackets. -/
def rangesOf : List Char → List (Char × Char)
  | a :: '-' :: b :: rest => (a, b) :: rangesOf rest
  | a :: rest => (a, a) :: rangesOf rest
  | [] => []

/-- A set in brackets with at least one character, after its opening bracket or `!`. -/
def set? : List Char → Option (List (Char × Char) × List Char)
  | [] => none
  | c :: rest =>
    match rest.dropWhile (· != ']') with
    | [] => none
    | _ :: after => some (rangesOf (c :: rest.takeWhile (· != ']')), after)

/-- The parts of a pattern, one for each call. `stepStart` says whether a step starts here. -/
def tokens? : Nat → Bool → List Char → Except String (List Token)
  | 0, _, _ => .ok []
  | _ + 1, _, [] => .ok []
  | fuel + 1, stepStart, c :: rest =>
    match c with
    | '?' => (.anyChar :: ·) <$> tokens? fuel false rest
    | '*' =>
      match rest with
      | '*' :: '*' :: _ => .error "wildcards are either regular `*` or recursive `**`"
      | '*' :: rest =>
        if !stepStart then .error "recursive wildcards must form a single path component"
        else match rest with
          | [] => .ok [.anySteps]
          | '/' :: rest => (.anySteps :: ·) <$> tokens? fuel true rest
          | _ => .error "recursive wildcards must form a single path component"
      | rest => (.anySequence :: ·) <$> tokens? fuel false rest
    | '[' =>
      match rest with
      | '!' :: rest =>
        match set? rest with
        | some (ranges, rest) => (.except ranges :: ·) <$> tokens? fuel false rest
        | none => .error "invalid range pattern"
      | rest =>
        match set? rest with
        | some (ranges, rest) => (.within ranges :: ·) <$> tokens? fuel false rest
        | none => .error "invalid range pattern"
    | c => (.char c :: ·) <$> tokens? fuel (c == '/') rest

/-- The pattern of a text. -/
def ofText (s : String) : Except String (List Token) := tokens? (s.length + 1) true s.toList

/-- Whether a character is in one of some ranges. -/
def inRanges (ranges : List (Char × Char)) (c : Char) : Bool :=
  ranges.any (fun r => r.1.toNat ≤ c.toNat && c.toNat ≤ r.2.toNat)

/-- Whether a part that stands for one character stands for this one. -/
def Token.takes : Token → Char → Bool
  | .char d, c => d == c
  | .anyChar, _ => true
  | .within ranges, c => inRanges ranges c
  | .except ranges, c => !inRanges ranges c
  | _, _ => false

/-- Whether a test holds for the characters or for those after some of them have been dropped. -/
def anySuffix (p : List Char → Bool) : List Char → Bool
  | [] => p []
  | c :: rest => p (c :: rest) || anySuffix p rest

/-- Whether a test holds for the characters, for those after some slash, or for no characters. -/
def anyStep (p : List Char → Bool) (cs : List Char) : Bool :=
  p cs || p [] || go cs
where
  /-- Try the characters after each slash. -/
  go : List Char → Bool
    | [] => false
    | c :: rest => (c == '/' && p rest) || go rest

/-- Whether the parts of a pattern stand for characters. -/
def fitsChars : List Token → List Char → Bool
  | [], cs => cs.isEmpty
  | .anySequence :: ts, cs => anySuffix (fitsChars ts) cs
  | .anySteps :: ts, cs => anyStep (fitsChars ts) cs
  | _ :: _, [] => false
  | t :: ts, c :: cs => t.takes c && fitsChars ts cs

/-- Whether a pattern stands for a name. -/
def fits (pattern : List Token) (name : String) : Bool := fitsChars pattern name.toList

end NamePattern

end Cookbook
