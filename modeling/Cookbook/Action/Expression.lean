import Cookbook.EntityType
import Cookbook.Regex.Parser
import Cookbook.Workspace

/-!
# Expressions for the names of objects

An expression with a `.*` in it is a wildcard: it stands for the names of all stored objects of an
entity type in which each of its asterisks is replaced by one or more characters of a segment. So an
asterisk never crosses a dot. Any other expression is a name and stands for itself, whether or not
there is such an object.

Names are compared with a regular expression. Its notation is the expression with all characters
escaped that mean something else in it, and then with a set of characters for each asterisk.

## Main definitions

* `Expression.isWildcard`: whether an expression is a wildcard.
* `Expression.regex`: the regular expression for an expression.
* `Expression.fits`: whether a name is one that an expression stands for.
* `Expression.names`: the stored names that an expression stands for.
-/

namespace Cookbook

namespace Expression

/-- Whether an expression stands for stored names. -/
def isWildcard (expression : String) : Bool := Text.occursIn ".*" expression

/-- What an asterisk stands for, in the notation of regular expressions. -/
def starPattern : String := "[^.:?*<>\"'/\\\\]+"

/-- The notation of the regular expression for an expression. -/
def pattern (expression : String) : String :=
  "^" ++ Text.replace "\\*" starPattern (Regex.escape expression) ++ "$"

/-- The regular expression for an expression. -/
def regex (expression : String) : Except Error Regex :=
  match Regex.parse? (pattern expression) with
  | some r => .ok r
  | none => .error (.regex "the expression is malformed")

/-- Whether a name is one that an expression stands for. -/
def fits (expression name : String) : Bool :=
  match regex expression with
  | .ok r => r.occursIn name
  | .error _ => false

/-- The failure when no type owns an expression. -/
def unowned (expression : String) : Error :=
  .configAction ("No installed config entity type uses the prefix in the expression '"
    ++ expression ++ "'. Either there is a typo in the expression or this recipe should install "
    ++ "an additional module or depend on another recipe.")

/-- The names that an expression stands for, ascending. A wildcard has to start with the stem of an
entity type. -/
def names (types : EntityTypes) (expression : String) : ConfigM (List String) := do
  if !isWildcard expression then return [expression]
  match types.ownerOf? expression with
  | none => throw (unowned expression)
  | some t =>
    let r ← MonadExcept.ofExcept (regex expression)
    return (← ConfigM.list none (t.stem ++ ".")).filter r.occursIn

end Expression

end Cookbook
