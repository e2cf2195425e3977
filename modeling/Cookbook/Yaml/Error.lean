/-!
# Failures of reading and writing documents

## Main definitions

* `Yaml.Failure`: why a document cannot be read as a value of the wanted shape, or why a value
  cannot be written.
* `Yaml.Failure.message`: its wording.
-/

namespace Cookbook

namespace Yaml

/-- Why a document cannot be read or written. -/
inductive Failure where
  /-- A character that no document may hold. -/
  | unreadableCharacter
  /-- A token that breaks the rules of layout or notation. -/
  | malformedToken (problem : String)
  /-- Tokens in an order that makes no node. -/
  | unexpectedToken (problem : String)
  /-- An alias of an anchor that was not set before it. -/
  | unknownAnchor (name : String)
  /-- More than one document in the text. -/
  | severalDocuments
  /-- Collections nested too deeply. -/
  | tooDeep
  /-- Aliases followed too often for the size of the document. -/
  | tooManyAliases
  /-- A mapping with one key twice. -/
  | duplicateKey
  /-- An integer beyond the 64-bit ranges. -/
  | integerRange (text : String)
  /-- A scalar whose tag promises another kind. -/
  | mistaggedScalar (text expected : String)
  /-- A node of another shape than the wanted one. -/
  | unexpectedShape (expected : String)
  /-- A field that is wanted and not there. -/
  | missingField (name : String)
  /-- A field that is there twice. -/
  | duplicateField (name : String)
  /-- A field that has no meaning here. -/
  | unknownField (name : String)
  /-- A tag right below a tag. -/
  | nestedTag
  /-- A mapping with a single entry whose key is written like a tag or a mapping of its own. -/
  | ambiguousKey
  deriving Repr, DecidableEq, Inhabited

/-- The wording of a failure. -/
def Failure.message : Failure → String
  | .unreadableCharacter => "control characters are not allowed"
  | .malformedToken problem => problem
  | .unexpectedToken problem => problem
  | .unknownAnchor name => "unknown anchor " ++ name
  | .severalDocuments => "the text contains more than one document"
  | .tooDeep => "recursion limit exceeded"
  | .tooManyAliases => "repetition limit exceeded"
  | .duplicateKey => "duplicate entry in a mapping"
  | .integerRange text => "integer " ++ text ++ " is out of range"
  | .mistaggedScalar text expected => "invalid value " ++ text ++ ", expected " ++ expected
  | .unexpectedShape expected => "invalid type, expected " ++ expected
  | .missingField name => "missing field " ++ name
  | .duplicateField name => "duplicate field " ++ name
  | .unknownField name => "unknown field " ++ name
  | .nestedTag => "a tagged value may not hold a tagged value"
  | .ambiguousKey => "a mapping with a single entry may not have this key"

end Yaml

end Cookbook
