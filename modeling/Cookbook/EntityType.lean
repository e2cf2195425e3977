import Cookbook.NameMap
import Cookbook.Text.Split

/-!
# Types of configuration entities

An entity type owns the objects whose names are its stem, a dot and an id that is not empty. Where
several types own a name, the one with the longest stem counts.

## Main definitions

* `EntityType`: a type, its stem and the extension that provides it.
* `EntityType.owns`, `EntityType.entityId?`: the names it owns.
* `EntityTypes.ownerOf?`: the type that counts for a name.
-/

namespace Cookbook

/-- A type of configuration entities. -/
structure EntityType where
  /-- Its id. -/
  id : String
  /-- What the names of its entities start with, before a dot. -/
  stem : String
  /-- The extension that provides it. -/
  provider : String
  deriving DecidableEq, Repr

/-- Entity types by id. -/
abbrev EntityTypes := NameMap EntityType

namespace EntityType

/-- The id in a name that the type owns. -/
def entityId? (t : EntityType) (name : String) : Option String :=
  match (Text.stripStart? t.stem name).map String.toList with
  | some ('.' :: c :: rest) => some (String.ofList (c :: rest))
  | _ => none

/-- Whether the type owns a name. -/
def owns (t : EntityType) (name : String) : Bool := (t.entityId? name).isSome

end EntityType

namespace EntityTypes

/-- Add a type; a type with the same id is replaced. -/
def register (ts : EntityTypes) (t : EntityType) : EntityTypes := ts.insert t.id t

/-- The last of the types with the longest stem. -/
def longest (ts : List EntityType) : Option EntityType :=
  ts.foldl (fun best t =>
    match best with
    | some b => if t.stem.utf8ByteSize < b.stem.utf8ByteSize then some b else some t
    | none => some t) none

/-- The type that owns a name; of several, the last in id order of those with the longest stem. -/
def ownerOf? (ts : EntityTypes) (name : String) : Option EntityType :=
  longest (ts.values.filter (·.owns name))

end EntityTypes

end Cookbook
