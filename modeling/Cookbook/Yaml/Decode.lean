import Cookbook.Yaml.Node
import Cookbook.Yaml.Scalar
import Cookbook.NameMap

/-!
# Decoding documents

A document is read either as a `Value`, where the notation of each scalar decides its kind, or as a
wanted shape, where a text field takes any scalar by its text. Aliases are followed, but not more
than a hundred times for each mark of the document, and collections are at most 128 deep.

## Main definitions

* `Yaml.DecodeM`: decoding under a document's anchors.
* `Yaml.DecodeM.value`: a node as a value.
* `Yaml.DecodeM.text`, `flag`, `list`, `nameMap`, `record`: a node as a wanted shape.
* `Yaml.readValue`, `Yaml.readAs`: from a text.
-/

namespace Cookbook

namespace Yaml

/-- Decoding under the anchored nodes of a document, counting how often an alias was followed. -/
abbrev DecodeM := ReaderT Document (StateT Nat (Except Failure))

namespace DecodeM

/-- How deep collections may be nested. -/
def maxDepth : Nat := 128

/-- The node an alias stands for; any other node is itself. -/
def follow (n : Node) : DecodeM Node := do
  match n with
  | .alias number =>
    let d ← read
    let followed ← get
    set (followed + 1)
    if followed + 1 > 100 * d.root.size then throw .tooManyAliases
    match d.anchored? number with
    | some target => return target
    | none => throw (.unknownAnchor (toString number))
  | n => return n

/-! ### Values -/

/-- The name of a tag that stands for itself, which is one with an exclamation mark in front. -/
def ownTag? : Option String → Option String
  | none => none
  | some tag => if tag.startsWith "!" then some (Value.tagName tag) else none

/-- A plain scalar as a value. -/
def plain (s : String) : DecodeM Value :=
  match Plain.ofText s with
  | .value v => return v
  | .outOfRange => throw (.integerRange s)
  | .text => return .string s

/-- A scalar as a value. A standard tag asks for its kind; a scalar with any other tag is its
text. -/
def scalar (tag : Option String) (isPlain : Bool) (s : String) : DecodeM Value :=
  let expecting (kind : String) (found : Option Value) : DecodeM Value :=
    match found with
    | some v => return v
    | none => throw (.mistaggedScalar s kind)
  match tag with
  | none => if isPlain then plain s else return .string s
  | some "tag:yaml.org,2002:bool" => expecting "a boolean" ((Plain.boolWord? s).map .bool)
  | some "tag:yaml.org,2002:int" =>
    match Plain.ofInteger? s with
    | some (.value v) => return v
    | some _ => throw (.integerRange s)
    | none => throw (.mistaggedScalar s "an integer")
  | some "tag:yaml.org,2002:float" => expecting "a float" ((Plain.float? s).map .float)
  | some "tag:yaml.org,2002:null" =>
    expecting "null" (if Plain.isNullWord s then some .null else none)
  | some _ => return .string s

/-- Put the entries of a mapping together; a repeated key is refused. -/
def collect (entries : List (Value × Value)) : DecodeM Value := do
  let add (m : Mapping) (e : Value × Value) : DecodeM Mapping :=
    if (m.get? e.1).isSome then throw .duplicateKey else return ⟨e :: m.entries⟩
  let m ← entries.foldlM add Mapping.empty
  return .map m.entries.reverse

/-- A node as a value; collections may be nested `depth` deep. -/
def value : Nat → Node → DecodeM Value
  | depth, n => do
    let n ← follow n
    let tag := match n with
      | .scalar tag .. | .seq tag _ | .map tag _ => tag
      | _ => none
    let own := ownTag? tag
    let content ← match n with
      | .scalar tag isPlain s =>
        if own.isSome then if isPlain then plain s else pure (.string s)
        else scalar tag isPlain s
      | .seq _ items =>
        match depth with
        | 0 => throw .tooDeep
        | depth + 1 => return wrap own (.seq (← items.mapM (value depth)))
      | .map _ entries =>
        match depth with
        | 0 => throw .tooDeep
        | depth + 1 =>
          return wrap own (← collect (← entries.mapM fun (k, v) => do
            return (← value depth k, ← value depth v)))
      | _ => pure .null
    return wrap own content
where
  /-- Put a tag around a value, if there is one. -/
  wrap (tag : Option String) (v : Value) : Value :=
    match tag with
    | none => v
    | some t => .tagged t v

/-! ### Wanted shapes -/

/-- Whether the node is nothing, or an empty plain scalar, which stands for an empty collection. -/
def isBlank : Node → Bool
  | .absent => true
  | .scalar _ isPlain s => isPlain && s.isEmpty
  | _ => false

/-- A text: any scalar. -/
def text (n : Node) : DecodeM String := do
  match ← follow n with
  | .scalar _ _ s => return s
  | _ => throw (.unexpectedShape "a string")

/-- A boolean: a plain scalar that is a word for one. -/
def flag (n : Node) : DecodeM Bool := do
  match ← follow n with
  | .scalar _ true s =>
    match Plain.boolWord? s with
    | some b => return b
    | none => throw (.unexpectedShape "a boolean")
  | _ => throw (.unexpectedShape "a boolean")

/-- A node that may be null. -/
def optional {α : Type} (f : Node → DecodeM α) (n : Node) : DecodeM (Option α) := do
  match ← follow n with
  | .absent => return none
  | .scalar none true s =>
    if s.isEmpty || Plain.isNullWord s then return none else some <$> f (.scalar none true s)
  | n => some <$> f n

/-- A sequence. -/
def list {α : Type} (f : Node → DecodeM α) (n : Node) : DecodeM (List α) := do
  match ← follow n with
  | .seq _ items => items.mapM f
  | n => if isBlank n then return [] else throw (.unexpectedShape "a sequence")

/-- The entries of a mapping, keys by their text. -/
def entries (n : Node) : DecodeM (List (String × Node)) := do
  match ← follow n with
  | .map _ entries => entries.mapM fun (k, v) => return (← text k, v)
  | n => if isBlank n then return [] else throw (.unexpectedShape "a map")

/-- A mapping from names; the last of several entries with one name stays. -/
def nameMap {α : Type} (f : Node → DecodeM α) (n : Node) : DecodeM (NameMap α) := do
  let es ← (← entries n).mapM fun (k, v) => return (k, ← f v)
  return NameMap.ofList es

/-- A mapping of values. -/
def mapping (n : Node) : DecodeM Mapping := do
  match ← follow n with
  | .map _ entries =>
    match ← value maxDepth (.map none entries) with
    | .map es => return ⟨es⟩
    | _ => throw (.unexpectedShape "a mapping")
  | n => if isBlank n then return Mapping.empty else throw (.unexpectedShape "a mapping")

/-- A mapping with known fields, none of them twice; other fields have no meaning. -/
def record (known : List String) (n : Node) : DecodeM (List (String × Node)) := do
  let es := (← entries n).filter (fun e => known.contains e.1)
  for name in known do
    if 1 < (es.filter (fun e => e.1 == name)).length then throw (.duplicateField name)
  return es

/-- The value of a field. -/
def field? {α : Type} (es : List (String × Node)) (name : String) (f : Node → DecodeM α) :
    DecodeM (Option α) :=
  match es.find? (fun e => e.1 == name) with
  | some (_, n) => some <$> f n
  | none => return none

/-- The value of a field that has to be there. -/
def field {α : Type} (es : List (String × Node)) (name : String) (f : Node → DecodeM α) :
    DecodeM α := do
  match ← field? es name f with
  | some a => return a
  | none => throw (.missingField name)

/-- One of the given words, either as a scalar or as the tag of a null scalar. -/
def word {α : Type} (words : List (String × α)) (n : Node) : DecodeM α := do
  let find (s : String) : DecodeM α :=
    match words.find? (fun w => w.1 == s) with
    | some (_, a) => return a
    | none => throw (.unexpectedShape "one of the known words")
  match ← follow n with
  | .scalar tag isPlain s =>
    match ownTag? tag with
    | none => find s
    | some t =>
      if isPlain && (s.isEmpty || Plain.isNullWord s) then find t
      else throw (.unexpectedShape "unit variant")
  | _ => throw (.unexpectedShape "a word")

end DecodeM

/-- The only document of a text. -/
def readDocument (s : String) : Except Failure Document := do
  Document.ofTokens (← tokens s)

/-- Read a text in a wanted shape. -/
def readAs {α : Type} (f : Node → DecodeM α) (s : String) : Except Failure α := do
  let d ← readDocument s
  let (a, _) ← ((f d.root).run d).run 0
  return a

/-- Read a text as a value; a text without a document is null. -/
def readValue (s : String) : Except Failure Value := readAs (DecodeM.value DecodeM.maxDepth) s

end Yaml

end Cookbook
