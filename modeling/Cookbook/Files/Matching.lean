import Cookbook.Files
import Cookbook.Schema.NamePattern

/-!
# Places that fit a pattern

A pattern for paths is taken step by step: each of its steps is a pattern for one entry. The places
that fit are shown as they are reached, without the `.` of the working directory in front.

## Main definitions

* `Files.matching`: the places that fit a pattern, in name order.
-/

namespace Cookbook

namespace NamePattern

/-- The text of a pattern that stands for itself. -/
def plainText? (pattern : List Token) : Option String :=
  String.ofList <$> pattern.mapM (fun
    | .char c => some c
    | _ => none)

end NamePattern

namespace Files

/-- The path one step on; a step from the working directory stands alone. -/
def stepOn (place : Path) (piece : String) : Path :=
  if place.same ⟨"."⟩ then ⟨piece⟩ else place.join piece

/-- The places one step on from a place that fit the pattern of the step. -/
def matchingStep (fs : Files) (place : Path) (pattern : List NamePattern.Token) : List Path :=
  match NamePattern.plainText? pattern with
  | some piece =>
    let next := stepOn place piece
    let isThere := if piece = "." ∨ piece = ".." then fs.isDir place else fs.holds next
    if isThere then [next] else []
  | none =>
    let names := ((fs.readDir place).toOption.getD []).map Prod.fst
    (names.filter (NamePattern.fits pattern)).map (stepOn place)

/-- The places that fit a pattern, in name order. -/
def matching (fs : Files) (pattern : String) : Except String (List Path) := do
  let _ ← NamePattern.ofText pattern
  let (start, pieces) := match Text.split '/' pattern with
    | "" :: rest => ("/", rest)
    | pieces => (".", pieces)
  let steps ← pieces.mapM NamePattern.ofText
  return steps.foldl (fun places step => places.flatMap (fs.matchingStep · step)) [⟨start⟩]

end Files

end Cookbook
