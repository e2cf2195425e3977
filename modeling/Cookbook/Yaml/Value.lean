import Cookbook.Binary64.Basic

/-!
# Configuration values

The values that configuration is made of. A mapping keeps its entries in the order they were first
put in; that order is what is written out, but it has no part in equality.

A tagged value is seen through by the accessors (`asString?`, `asMapping?`, `isNull` and so on) and
not by a match on the constructors; equality takes the tag into account.

## Main definitions

* `Value`: null, booleans, integers, floats, strings, sequences, mappings and tagged values.
* `Value.same`: equality up to the order of mapping entries.
* `Mapping`: the entries of a mapping, with `get?`, `insert` and `erase` by key.

## Main statements

* `Mapping.getName?_insertName_self`: what was put under a name is found there.
-/

namespace Cookbook

/-- A configuration value. -/
inductive Value where
  /-- The null value. -/
  | null
  /-- A boolean. -/
  | bool (b : Bool)
  /-- An integer. -/
  | int (n : Int)
  /-- A floating point number. -/
  | float (x : Binary64)
  /-- A string. -/
  | string (s : String)
  /-- A sequence. -/
  | seq (items : List Value)
  /-- A mapping, by its entries in order. -/
  | map (entries : List (Value × Value))
  /-- A value with a tag, which is held without its leading exclamation mark. -/
  | tagged (tag : String) (value : Value)
  deriving Repr, Inhabited

/-- The entries of a mapping, in order. -/
structure Mapping where
  /-- The keys with their values. -/
  entries : List (Value × Value)
  deriving Repr, Inhabited

namespace Value

/-! ### Equality -/

mutual

/-- Equality up to the order of mapping entries; not-a-number equals itself. -/
def same : Value → Value → Bool
  | .null, .null => true
  | .bool a, .bool b => a == b
  | .int a, .int b => a == b
  | .float a, .float b => a.same b
  | .string a, .string b => a == b
  | .seq xs, .seq ys => sameItems xs ys
  | .map xs, .map ys => xs.length == ys.length && sameEntries xs ys
  | .tagged s x, .tagged t y => s == t && x.same y
  | _, _ => false

/-- Equality of sequences, item by item. -/
def sameItems : List Value → List Value → Bool
  | [], [] => true
  | x :: xs, y :: ys => x.same y && sameItems xs ys
  | _, _ => false

/-- Whether each entry of the first list is in the second. -/
def sameEntries : List (Value × Value) → List (Value × Value) → Bool
  | [], _ => true
  | (k, v) :: xs, ys => ys.any (fun e => k.same e.1 && v.same e.2) && sameEntries xs ys

end

/-! ### Accessors, which see through tags -/

/-- The value below all tags. -/
def untagged : Value → Value
  | .tagged _ v => v.untagged
  | v => v

/-- The string, if it is one. -/
def asString? (v : Value) : Option String :=
  match v.untagged with
  | .string s => some s
  | _ => none

/-- The items, if it is a sequence. -/
def asSequence? (v : Value) : Option (List Value) :=
  match v.untagged with
  | .seq items => some items
  | _ => none

/-- The entries, if it is a mapping. -/
def asMapping? (v : Value) : Option Mapping :=
  match v.untagged with
  | .map entries => some ⟨entries⟩
  | _ => none

/-- Whether it is null. -/
def isNull (v : Value) : Bool :=
  match v.untagged with
  | .null => true
  | _ => false

/-- Whether it is a boolean. -/
def isBool (v : Value) : Bool :=
  match v.untagged with
  | .bool _ => true
  | _ => false

/-- Whether it is an integer. -/
def isInteger (v : Value) : Bool :=
  match v.untagged with
  | .int _ => true
  | _ => false

/-- Whether it is an integer or a float. -/
def isNumber (v : Value) : Bool :=
  match v.untagged with
  | .int _ | .float _ => true
  | _ => false

/-- Whether it is a string. -/
def isString (v : Value) : Bool := v.asString?.isSome

/-- Whether it is a sequence. -/
def isSequence (v : Value) : Bool := v.asSequence?.isSome

/-- Whether it is a mapping. -/
def isMapping (v : Value) : Bool := v.asMapping?.isSome

/-! ### Kinds -/

/-- The kind of a value in the words of messages. -/
def kind : Value → String
  | .null => "null"
  | .bool _ => "boolean"
  | .int _ => "integer"
  | .float _ => "float"
  | .string _ => "string"
  | .seq _ => "sequence"
  | .map _ => "mapping"
  | .tagged .. => "tagged value"

/-- A tag as it is held: without one leading exclamation mark, unless that is all there is. -/
def tagName (tag : String) : String :=
  match tag.toList with
  | '!' :: c :: rest => String.ofList (c :: rest)
  | _ => tag

end Value

namespace Mapping

/-! ### Look-up and update -/

/-- The mapping without entries. -/
def empty : Mapping := ⟨[]⟩

/-- Whether there is no entry. -/
def isEmpty (m : Mapping) : Bool := m.entries.isEmpty

/-- The number of entries. -/
def size (m : Mapping) : Nat := m.entries.length

/-- The mapping as a value. -/
def toValue (m : Mapping) : Value := .map m.entries

/-- The keys, in order. -/
def keys (m : Mapping) : List Value := m.entries.map Prod.fst

/-- The value under a key. -/
def get? (m : Mapping) (k : Value) : Option Value :=
  (m.entries.find? (fun e => e.1.same k)).map Prod.snd

/-- The value under a string key. -/
def getName? (m : Mapping) (name : String) : Option Value := m.get? (.string name)

/-- Whether a string is among the keys. -/
def containsName (m : Mapping) (name : String) : Bool := (m.getName? name).isSome

/-- Put a value under a key: in the place of the entry with that key, else at the end. -/
def insertEntry (k v : Value) : List (Value × Value) → List (Value × Value)
  | [] => [(k, v)]
  | e :: rest => if e.1.same k then (e.1, v) :: rest else e :: insertEntry k v rest

/-- Put a value under a key, keeping the place of a key that is there already. -/
def insert (m : Mapping) (k v : Value) : Mapping := ⟨insertEntry k v m.entries⟩

/-- Put a value under a string key. -/
def insertName (m : Mapping) (name : String) (v : Value) : Mapping := m.insert (.string name) v

/-- Put all entries of a second mapping into the first, in order. -/
def insertAll (m n : Mapping) : Mapping := n.entries.foldl (fun m e => m.insert e.1 e.2) m

/-- Keep the entries that pass a test. -/
def filter (p : Value → Value → Bool) (m : Mapping) : Mapping :=
  ⟨m.entries.filter (fun e => p e.1 e.2)⟩

/-- Take a string key out. -/
def eraseName (m : Mapping) (name : String) : Mapping :=
  m.filter (fun k _ => !k.same (.string name))

/-- The mapping with the given string keys, in the order given. -/
def ofNames (l : List (String × Value)) : Mapping := ⟨l.map (fun e => (.string e.1, e.2))⟩

/-- Equality up to the order of entries, at every depth. -/
def same (m n : Mapping) : Bool := m.toValue.same n.toValue

/-! ### Laws -/

theorem same_string_iff {v : Value} {s : String} : v.same (.string s) = true ↔ v = .string s := by
  cases v <;> simp [Value.same]

@[simp] theorem getName?_insertName_self (m : Mapping) (name : String) (v : Value) :
    (m.insertName name v).getName? name = some v := by
  obtain ⟨l⟩ := m
  simp only [insertName, insert, getName?, get?]
  induction l with
  | nil => simp [insertEntry, Value.same]
  | cons e rest ih =>
    simp only [insertEntry]
    split
    · rename_i h
      simp [h]
    · rename_i h
      rw [List.find?_cons]
      simpa [h] using ih

theorem getName?_insertName_of_ne (m : Mapping) {name other : String} (v : Value)
    (h : other ≠ name) : (m.insertName name v).getName? other = m.getName? other := by
  obtain ⟨l⟩ := m
  simp only [insertName, insert, getName?, get?]
  induction l with
  | nil => simp [insertEntry, Value.same, Ne.symm h]
  | cons e rest ih =>
    simp only [insertEntry]
    split
    · rename_i he
      have hk := same_string_iff.1 he
      have hne : Value.same e.1 (.string other) = false := by
        simp [hk, Value.same, Ne.symm h]
      simp [hne]
    · simp only [List.find?_cons]
      split
      · rfl
      · exact ih

end Mapping

end Cookbook
