import Cookbook.Yaml.Value
import Cookbook.Yaml.Character

/-!
# Plain scalars

A scalar written without quotes is null, a boolean, a number or, if it reads as none of these, a
string. The notation of numbers is decimal, with `0x`, `0o` and `0b` for other bases; a decimal
integer with a leading zero is a string.

## Main definitions

* `Yaml.Plain.ofText`: what a plain scalar stands for.
* `Yaml.Plain.isAmbiguous`: whether a string must be quoted because it would read as something else.
-/

namespace Cookbook

namespace Yaml

/-- What a plain scalar stands for. -/
inductive Plain where
  /-- A value other than a string. -/
  | value (v : Value)
  /-- An integer beyond 64 bits that is still within 128 bits. -/
  | outOfRange
  /-- The string itself. -/
  | text
  deriving Repr

namespace Plain

/-- Whether the text is a word for null. -/
def isNullWord (s : String) : Bool := ["null", "Null", "NULL", "~"].contains s

/-- The boolean a text is a word for. -/
def boolWord? (s : String) : Option Bool :=
  if ["true", "True", "TRUE"].contains s then some true
  else if ["false", "False", "FALSE"].contains s then some false
  else none

/-- Whether the text is a decimal integer with a leading zero, which is not read as a number. -/
def hasLeadingZero (cs : List Char) : Bool :=
  let cs := match cs with
    | '-' :: rest | '+' :: rest => rest
    | _ => cs
  match cs with
  | '0' :: c :: rest => (c :: rest).all Char.isDigit
  | _ => false

/-- The value of digits in a base up to sixteen, at least one digit. -/
def digits? (base : Nat) (cs : List Char) : Option Nat :=
  if cs.isEmpty then none
  else cs.foldlM (fun n c => match hexDigit? c with
    | some d => if d < base then some (base * n + d) else none
    | none => none) 0

/-- The value of digits with their base mark, or of decimal digits. -/
def magnitude? : List Char → Option Nat
  | '0' :: 'x' :: cs => digits? 16 cs
  | '0' :: 'o' :: cs => digits? 8 cs
  | '0' :: 'b' :: cs => digits? 2 cs
  | cs => digits? 10 cs

/-- The sign and the magnitude of an integer. -/
def integer? (cs : List Char) : Option (Bool × Nat) :=
  if hasLeadingZero cs then none
  else match cs with
    | '-' :: rest => (magnitude? rest).map (true, ·)
    | '+' :: rest => (magnitude? rest).map (false, ·)
    | _ => (magnitude? cs).map (false, ·)

/-- An integer of at most 64 bits is a value; one of at most 128 bits is out of range; a longer one
is not read as an integer. -/
def ofInteger? (s : String) : Option Plain :=
  match integer? s.toList with
  | some (false, n) =>
    if n < Nat.pow 2 64 then some (.value (.int n))
    else if n < Nat.pow 2 128 then some .outOfRange
    else none
  | some (true, n) =>
    if n ≤ Nat.pow 2 63 then some (.value (.int (-(n : Int))))
    else if n ≤ Nat.pow 2 127 then some .outOfRange
    else none
  | none => none

/-- The float a text stands for. -/
def float? (s : String) : Option Binary64 :=
  if [".inf", ".Inf", ".INF", "+.inf", "+.Inf", "+.INF"].contains s then some (.infinite false)
  else if ["-.inf", "-.Inf", "-.INF"].contains s then some (.infinite true)
  else if [".nan", ".NaN", ".NAN"].contains s then some .nan
  else Binary64.ofText s

/-- What a plain scalar stands for. -/
def ofText (s : String) : Plain :=
  if s.isEmpty || isNullWord s then .value .null
  else match boolWord? s with
    | some b => .value (.bool b)
    | none =>
      match ofInteger? s with
      | some p => p
      | none =>
        if hasLeadingZero s.toList then .text
        else match float? s with
          | some x => .value (.float x)
          | none => .text

/-- Whether a string without quotes would read as something else, or as a number written oddly. -/
def isAmbiguous (s : String) : Bool :=
  match ofText s with
  | .text => hasLeadingZero s.toList
  | _ => true

end Plain

end Yaml

end Cookbook
