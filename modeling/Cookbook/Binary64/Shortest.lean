import Cookbook.Binary64.Basic

/-!
# Shortest decimal notation

The text of a `Binary64` has the fewest digits that read back to it, and among those the digits
nearest to it. The search goes over the decimal grids from one digit to seventeen; on each grid only
the two neighbours of the number can be nearest to it, so only they are tried.

## Main definitions

* `Binary64.shortest`: the digits and the decimal exponent.
* `Binary64.text`: the notation with a point for exponents `-5` to `15` and an `e` beyond.
-/

namespace Cookbook

namespace Binary64

/-! ### Comparing with a decimal grid -/

/-- Compare `c * 10 ^ t` with `x * 2 ^ s`. -/
def compareScaled (c : Nat) (t : Int) (x : Nat) (s : Int) : Ordering :=
  compare (c * Nat.pow 10 t.toNat * Nat.pow 2 (-s).toNat)
    (x * Nat.pow 2 s.toNat * Nat.pow 10 (-t).toNat)

/-- Whether `c * 10 ^ t` reads back to `m * 2 ^ e`: it lies between the midpoints to the
neighbouring numbers, or on one of them when `m` is even. Below a power of two the neighbour is half
as far. -/
def readsBack (m : Nat) (e : Int) (c : Nat) (t : Int) : Bool :=
  let low := if m = Nat.pow 2 52 ∧ e > minExponent then 4 * m - 1 else 4 * m - 2
  let lower := compareScaled c t low (e - 2)
  let upper := compareScaled c t (4 * m + 2) (e - 2)
  if m % 2 = 0 then lower != .lt && upper != .gt else lower == .gt && upper == .lt

/-- The position of the decimal point of `num / den`: the least `k` for which the quotient is below
`10 ^ k`. -/
def decimalPoint (num den : Nat) : Int :=
  if num ≥ den then (Nat.toDigits 10 (num / den)).length
  else
    let zeros := (List.range 400).takeWhile (fun j => num * Nat.pow 10 (j + 1) < den)
    Int.negOfNat zeros.length

/-- The neighbour of `m * 2 ^ e` on the grid of multiples of `10 ^ t` that reads back to it, the
nearer one if both do. -/
def onGrid? (m : Nat) (e : Int) (t : Int) : Option Nat :=
  let num := m * Nat.pow 2 e.toNat * Nat.pow 10 (-t).toNat
  let den := Nat.pow 2 (-e).toNat * Nat.pow 10 t.toNat
  let down := num / den
  let up := down + 1
  match readsBack m e down t, readsBack m e up t with
  | true, true => some (roundQuotient num den)
  | true, false => some down
  | false, true => some up
  | false, false => none

/-- Drop trailing zeros of a coefficient, raising the exponent for each; `fuel` bounds the zeros. -/
def dropZeros : Nat → Nat → Int → Nat × Int
  | 0, c, t => (c, t)
  | fuel + 1, c, t => if c % 10 = 0 ∧ c ≠ 0 then dropZeros fuel (c / 10) (t + 1) else (c, t)

/-- The coefficient and exponent of the shortest decimal that reads back to `m * 2 ^ e`. -/
def shortest (m : Nat) (e : Int) : Nat × Int :=
  let k := decimalPoint (m * Nat.pow 2 e.toNat) (Nat.pow 2 (-e).toNat)
  let found := (List.range 17).findSome? fun (n : Nat) =>
    let t : Int := k - (n + 1 : Nat)
    (onGrid? m e t).map (fun c => (c, t))
  match found with
  | some (c, t) => dropZeros 20 c t
  | none => (m, e)

/-! ### Notation -/

/-- A run of zeros. -/
def zeros (n : Nat) : String := String.ofList (List.replicate n '0')

/-- The notation of `coefficient * 10 ^ exponent`: positional where the point falls from five
places before the digits to sixteen places into them, otherwise with one digit before the point and
an exponent. -/
def decimalText (coefficient : Nat) (exponent : Int) : String :=
  let ds := Nat.toDigits 10 coefficient
  let digits := String.ofList ds
  let point : Int := ds.length + exponent
  if 0 ≤ exponent ∧ point ≤ 16 then digits ++ zeros exponent.toNat ++ ".0"
  else if 0 < point ∧ point ≤ 16 then
    String.ofList (ds.take point.toNat) ++ "." ++ String.ofList (ds.drop point.toNat)
  else if -5 < point ∧ point ≤ 0 then "0." ++ zeros (-point).toNat ++ digits
  else
    let mark := "e" ++ toString (point - 1)
    match ds with
    | [d] => d.toString ++ mark
    | d :: rest => d.toString ++ "." ++ String.ofList rest ++ mark
    | [] => mark

/-- The text of a number. -/
def text : Binary64 → String
  | .nan => ".nan"
  | .infinite negative => if negative then "-.inf" else ".inf"
  | .finite negative m e =>
    let sign := if negative then "-" else ""
    if m = 0 then sign ++ "0.0"
    else
      let (c, t) := shortest m e
      sign ++ decimalText c t

end Binary64

end Cookbook
