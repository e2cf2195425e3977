/-!
# Numbers in texts

## Main definitions

* `Text.number64?`: the number of 64 bits that a text writes.
-/

namespace Cookbook

namespace Text

/-- A number of 64 bits in decimal digits, with a plus sign or without. -/
def number64? (s : String) : Option Nat :=
  let ds := match s.toList with
    | '+' :: rest => rest
    | cs => cs
  if ds.isEmpty || !ds.all Char.isDigit then none
  else
    let n := ds.foldl (fun n d => 10 * n + (d.toNat - '0'.toNat)) 0
    if n < Nat.pow 2 64 then some n else none

end Text

end Cookbook
