import Cookbook.Binary64.Shortest
import Cookbook.Text.Category
import Cookbook.Yaml.Value

/-!
# Sketches of values

A value in a notation for messages, where its kind is written beside it.

## Main definitions

* `Value.sketch`: the sketch of a value.
-/

namespace Cookbook

namespace Value

/-- Whether a character cannot be seen on its own: it is a mark on the one before, a blank other
than the space, or no visible character at all. -/
def isUnseen (c : Char) : Bool :=
  Text.isOther c || [Text.Run.mn, .me].contains (Text.category c)
    || ([Text.Run.zl, .zp, .zs].contains (Text.category c) && c != ' ')

/-- A character of a string in quotes. -/
def sketchChar (c : Char) : String :=
  if c = '"' then "\\\""
  else if c = '\\' then "\\\\"
  else if c = '\n' then "\\n"
  else if c = '\r' then "\\r"
  else if c = '\t' then "\\t"
  else if c.toNat = 0 then "\\0"
  else if isUnseen c then
    "\\u\x7b" ++ String.ofList (Nat.toDigits 16 c.toNat) ++ "\x7d"
  else String.singleton c

/-- A string in quotes. -/
def sketchString (s : String) : String := "\"" ++ String.join (s.toList.map sketchChar) ++ "\""

/-- A boolean as a word. -/
def boolWord (b : Bool) : String := if b then "true" else "false"

mutual

/-- The sketch of a value. -/
def sketch : Value → String
  | .null => "Null"
  | .bool b => "Bool(" ++ boolWord b ++ ")"
  | .int n => "Number(" ++ toString n ++ ")"
  | .float x => "Number(" ++ x.text ++ ")"
  | .string s => "String(" ++ sketchString s ++ ")"
  | .seq items => "Sequence [" ++ ", ".intercalate (sketchItems items) ++ "]"
  | .map entries => "Mapping \x7b" ++ ", ".intercalate (sketchEntries entries) ++ "\x7d"
  | .tagged tag v => "TaggedValue \x7b tag: !" ++ tag ++ ", value: " ++ sketch v ++ " \x7d"

/-- The items of a sequence. -/
def sketchItems : List Value → List String
  | [] => []
  | v :: rest => sketch v :: sketchItems rest

/-- The entries of a mapping; the kinds of simple keys are left out. -/
def sketchEntries : List (Value × Value) → List String
  | [] => []
  | (k, v) :: rest =>
    let key := match k with
      | .bool b => boolWord b
      | .int n => toString n
      | .float x => x.text
      | .string s => sketchString s
      | k => sketch k
    (key ++ ": " ++ sketch v) :: sketchEntries rest

end

end Value

end Cookbook
