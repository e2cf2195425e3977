/-!
# Binary floating point numbers

A `Binary64` is a number of the 64-bit binary format, held by its mantissa and exponent so that
every question about it is a question about integers. Reading a decimal rounds the exact quotient
to the nearest number, a tie going to the even mantissa.

## Main definitions

* `Binary64`: not-a-number, the infinities and `± mantissa * 2 ^ exponent`.
* `Binary64.ofDecimal`: the number nearest to `digits * 10 ^ exponent`.
* `Binary64.same`: the numerical equality in which not-a-number equals itself.
* `Binary64.ofText`: the decimal notation of a finite number.
-/

namespace Cookbook

/-- A number of the 64-bit binary format. A finite one is `± mantissa * 2 ^ exponent` with
`mantissa < 2 ^ 53`, and with the least exponent `-1074` wherever `mantissa < 2 ^ 52`. -/
inductive Binary64 where
  /-- Not a number. -/
  | nan
  /-- An infinity. -/
  | infinite (negative : Bool)
  /-- A finite number. -/
  | finite (negative : Bool) (mantissa : Nat) (exponent : Int)
  deriving DecidableEq, Repr, Inhabited

namespace Binary64

/-- The least exponent of the format. -/
def minExponent : Int := -1074

/-- The greatest exponent of the format. -/
def maxExponent : Int := 971

/-- Zero with a sign. -/
def zero (negative : Bool) : Binary64 := .finite negative 0 minExponent

/-- Whether the number is neither infinite nor not-a-number. -/
def isFinite : Binary64 → Bool
  | .finite .. => true
  | _ => false

/-- Numerical equality: the zeros are equal, and not-a-number equals itself. -/
def same : Binary64 → Binary64 → Bool
  | .nan, .nan => true
  | .infinite a, .infinite b => a == b
  | .finite a m e, .finite b n f => m == n && e == f && (a == b || m == 0)
  | _, _ => false

/-! ### Rounding -/

/-- `a / b` rounded to the nearest integer, a tie going to the even one. -/
def roundQuotient (a b : Nat) : Nat :=
  let q := a / b
  let r := 2 * (a % b)
  if r < b then q
  else if r = b then q + q % 2
  else q + 1

/-- The number nearest to `num / den`, where both are positive. -/
def ofQuotient (negative : Bool) (num den : Nat) : Binary64 :=
  -- with this exponent the quotient has 53 or 54 binary digits
  let guess : Int := (Nat.log2 num : Int) - (Nat.log2 den : Int) - 53
  let scaled (e : Int) : Nat × Nat := (num * Nat.pow 2 (-e).toNat, den * Nat.pow 2 e.toNat)
  let fits (e : Int) : Bool :=
    let (n, d) := scaled e
    n / d < Nat.pow 2 53
  let e : Int := if fits guess then guess else guess + 1
  let e : Int := max e minExponent
  let (n, d) := scaled e
  let m := roundQuotient n d
  let (m, e) := if m = Nat.pow 2 53 then (Nat.pow 2 52, e + 1) else (m, e)
  if e > maxExponent then .infinite negative else .finite negative m e

/-- The number nearest to `± digits * 10 ^ exponent`. The exponent is cut where the answer is
infinite or zero whatever the digits are. -/
def ofDecimal (negative : Bool) (digits : Nat) (exponent : Int) : Binary64 :=
  if digits = 0 then zero negative
  else
    let length : Int := (Nat.toDigits 10 digits).length
    if exponent + length > 400 then .infinite negative
    else if exponent + length < -400 then zero negative
    else ofQuotient negative (digits * Nat.pow 10 exponent.toNat) (Nat.pow 10 (-exponent).toNat)

/-! ### Decimal notation -/

/-- The value of decimal digits, continuing from `acc`. -/
def digitsValue (acc : Nat) (cs : List Char) : Nat :=
  cs.foldl (fun n c => 10 * n + (c.toNat - '0'.toNat)) acc

/-- The exponent part: nothing, or `e` with a sign and at least one digit. -/
def exponentOfChars : List Char → Option Int
  | [] => some 0
  | c :: cs =>
    if c = 'e' ∨ c = 'E' then
      let (negative, ds) := match cs with
        | '-' :: ds => (true, ds)
        | '+' :: ds => (false, ds)
        | ds => (false, ds)
      if ds.isEmpty ∨ ¬ ds.all Char.isDigit then none
      else
        let n : Int := digitsValue 0 ds
        some (if negative then -n else n)
    else none

/-- The finite number written as `[+-] digits [. digits] [e exponent]` with at least one digit
before the exponent; nothing for other texts and for numbers out of range. -/
def ofChars (cs : List Char) : Option Binary64 :=
  let (negative, cs) := match cs with
    | '-' :: cs => (true, cs)
    | '+' :: cs => (false, cs)
    | cs => (false, cs)
  let whole := cs.takeWhile Char.isDigit
  let rest := cs.dropWhile Char.isDigit
  let (fraction, rest) := match rest with
    | '.' :: cs => (cs.takeWhile Char.isDigit, cs.dropWhile Char.isDigit)
    | cs => ([], cs)
  if whole.isEmpty && fraction.isEmpty then none
  else do
    let exponent ← exponentOfChars rest
    let digits := digitsValue (digitsValue 0 whole) fraction
    let x := ofDecimal negative digits (exponent - fraction.length)
    if x.isFinite then some x else none

/-- The finite number written in a text. -/
def ofText (s : String) : Option Binary64 := ofChars s.toList

end Binary64

end Cookbook
