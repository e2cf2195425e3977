import Cookbook.Yaml.Decode
import Cookbook.Yaml.Printer
import Cookbook.Error

/-!
# Configuration objects

A configuration object is a mapping. What it needs is listed in it under `dependencies` and again
under `dependencies.enforced`; a dotted path leads through nested mappings.

## Main definitions

* `ConfigObject.decode`, `ConfigObject.encode`: the form in files.
* `ConfigObject.getPath?`, `ConfigObject.stringsAt`: what a dotted path leads to.
* `ConfigObject.dependencies`: the objects it needs.
* `Objects`, `Snapshot`: the objects of a collection, and of all collections.
-/

namespace Cookbook

/-- The content of a configuration object. -/
abbrev ConfigObject := Mapping

/-- The objects of a collection by name. -/
abbrev Objects := NameMap ConfigObject

/-- The objects of every collection; the default collection has the empty name. -/
abbrev Snapshot := NameMap Objects

/-- The name of the default collection. -/
def defaultCollection : String := ""

namespace ConfigObject

/-! ### Form in files -/

/-- Read an object. An empty document is an object without entries. -/
def decode (s : String) : Except Error ConfigObject :=
  match Yaml.readValue s with
  | .error e => .error (.ofYaml e)
  | .ok .null => .ok Mapping.empty
  | .ok (.map entries) => .ok ⟨entries⟩
  | .ok v => .error (.config "(decode)" ("expected a mapping, found " ++ v.kind))

/-- Write an object. -/
def encode (o : ConfigObject) : Except Error String :=
  match Yaml.print o.toValue with
  | .ok s => .ok s
  | .error e => .error (.ofYaml e)

/-! ### Paths -/

/-- What keys lead to, one after the other; each but the last has to lead to a mapping. -/
def getKeys? (o : ConfigObject) : List String → Option Value
  | [] => none
  | [k] => o.getName? k
  | k :: rest =>
    match o.getName? k with
    | none => none
    | some v =>
      match v.asMapping? with
      | none => none
      | some m => getKeys? m rest

/-- What a dotted path leads to. -/
def getPath? (o : ConfigObject) (path : String) : Option Value := getKeys? o (Text.split '.' path)

/-- The strings in the sequence a dotted path leads to. -/
def stringsAt (o : ConfigObject) (path : String) : List String :=
  match (getPath? o path).bind Value.asSequence? with
  | some items => items.filterMap Value.asString?
  | none => []

/-- The objects it needs: those listed, then those enforced that are not listed. -/
def dependencies (o : ConfigObject) : List String :=
  (stringsAt o "dependencies.enforced.config").foldl
    (fun found name => if found.contains name then found else found ++ [name])
    (stringsAt o "dependencies.config")

end ConfigObject

/-! ### Snapshots -/

namespace Objects

/-- Whether two collections hold equal objects under the same names. -/
def same (a b : Objects) : Bool :=
  a.names == b.names && a.entries.all (fun e => (b.get? e.1).any e.2.same)

end Objects

namespace Snapshot

/-- The objects of a collection; none if the collection is not there. -/
def collection (s : Snapshot) (c : String) : Objects := (s.get? c).getD NameMap.empty

/-- Whether two snapshots have the same collections with equal objects. -/
def same (a b : Snapshot) : Bool :=
  a.names == b.names && a.entries.all (fun e => (b.get? e.1).any (Objects.same e.2))

/-- The collections that hold objects, the default one left out. -/
def collectionNames (s : Snapshot) : List String :=
  (s.filter (fun e => e.1 != defaultCollection && !e.2.isEmpty)).names

/-- The snapshot of objects given with their collections; a later object replaces an earlier one. -/
def ofList (l : List (String × String × ConfigObject)) : Snapshot :=
  l.foldl (fun s e => s.insert e.1 ((collection s e.1).insert e.2.1 e.2.2)) NameMap.empty

end Snapshot

end Cookbook
