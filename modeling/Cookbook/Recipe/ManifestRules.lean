import Cookbook.Extension.Basic
import Cookbook.Recipe.Manifest
import Cookbook.Text.Category

/-!
# Rules for manifests

Every rule that a manifest breaks is reported, in a fixed order: its keys, then key by key. A rule
may need to know about recipes, extensions and actions; what it needs is in a `ManifestContext`.

## Main definitions

* `ManifestContext`: what rules need to know.
* `Manifest.violations`: the rules that a value breaks.
* `Manifest.parse`: the manifest in a file, if it breaks none.
-/

namespace Cookbook

/-- What rules for manifests need to know. -/
structure ManifestContext where
  /-- Whether there is a recipe of a name. -/
  recipeExists : String → Bool
  /-- Whether there is a module or theme of a name. -/
  extensionExists : String → Bool
  /-- The extensions that are installed, or will be by a list of extensions or of recipes. -/
  availableExtensions : List String → List String → List String
  /-- Whether an id is one of an action for an expression. -/
  actionExists : String → String → Bool

namespace Manifest

/-! ### Wording -/

/-- A key is missing. -/
def missing : String := "This field is missing."

/-- A key is not known. -/
def unexpectedKey : String := "This field was not expected."

/-- A value is blank. -/
def notBlank : String := "This value should not be blank."

/-- A value is no string. -/
def notString : String := "This value should be of type string."

/-- A value is no sequence or mapping. -/
def notArray : String := "This value should be of type array."

/-- A value does not say what is imported. -/
def notImport : String :=
  "This value should satisfy at least one of the following constraints: [1] This value should be "
    ++ "identical to string \"*\". [2] Each element of this collection should satisfy its own set "
    ++ "of constraints."

/-- An extension is not known. -/
def unknownExtension (name : String) : String :=
  "\"" ++ name ++ "\" is not a known module or theme."

/-- A key in brackets. -/
def bracket (key : String) : String := "[" ++ key ++ "]"

/-- A place in a list. -/
def place (path : String) (i : Nat) : String := path ++ bracket (toString i)

/-- The text of a key; a key that is no string is written as a document. -/
def keyText : Value → String
  | .string s => s
  | v =>
    match Yaml.print v with
    | .ok s => Text.trim s
    | .error _ => ""

/-! ### Strings and lists -/

/-- The rule for text that has to be one visible line. -/
def lineViolations (path message : String) : Value → List Violation
  | .null => [⟨path, notBlank⟩]
  | .string s =>
    if s.isEmpty then [⟨path, notBlank⟩]
    else if s.toList.any Text.isOther then [⟨path, message⟩]
    else []
  | _ => [⟨path, notString⟩]

/-- Whether a character may not be in a description. -/
def isHidden (c : Char) : Bool := Text.isOther c && c != '\t' && c != '\n' && c != '\r'

/-- Whether a value that is no string counts as blank. -/
def isBlankValue : Value → Bool
  | .null | .bool false | .seq [] | .map [] => true
  | _ => false

/-- The rule for a description. -/
def descriptionViolations (path : String) : Value → List Violation
  | .string s =>
    if s.isEmpty then [⟨path, notBlank⟩]
    else if s.toList.any isHidden then
      [⟨path, "The recipe description cannot contain control characters, only visible characters."⟩]
    else []
  | v => [⟨path, if isBlankValue v then notBlank else notString⟩]

/-- The rule for an item of a list of strings. -/
def itemViolation? (path : String) (i : Nat) : Value → Option Violation
  | .string s => if s.isEmpty then some ⟨place path i, notBlank⟩ else none
  | .null => some ⟨place path i, notBlank⟩
  | _ => some ⟨place path i, notString⟩

/-- The rule for a list of strings. -/
def listViolations (path : String) (v : Value) : List Violation :=
  match v.asSequence? with
  | some items => items.zipIdx.filterMap fun (item, i) => itemViolation? path i item
  | none => if v.isNull then [] else [⟨path, notArray⟩]

/-- The strings of a list that are not empty, with their places. -/
def listedStrings (v : Value) : List (String × Nat) :=
  ((v.asSequence?).getD []).zipIdx.filterMap fun
    | (.string s, i) => if s.isEmpty then none else some (s, i)
    | _ => none

/-- The rule for the keys of a mapping. -/
def keyViolations (path : String) (known : List String) (m : Mapping) : List Violation :=
  (m.keys.map keyText).filterMap fun key =>
    if known.contains key then none else some ⟨path ++ bracket key, unexpectedKey⟩

/-! ### Recipes and extensions -/

/-- The rules for the recipes that a recipe needs. -/
def recipeViolations (context : ManifestContext) (id : String) (v : Value) : List Violation :=
  listViolations "[recipes]" v ++ (listedStrings v).filterMap fun (name, i) =>
    if name = id then
      some ⟨place "[recipes]" i, "The \"" ++ name ++ "\" recipe cannot depend on itself."⟩
    else if context.recipeExists name then none
    else some ⟨place "[recipes]" i, "The " ++ name ++ " recipe does not exist."⟩

/-- The rules for the extensions that a recipe installs. -/
def installViolations (context : ManifestContext) (v : Value) : List Violation :=
  listViolations "[install]" v ++ (listedStrings v).filterMap fun (entry, i) =>
    let name := Extension.dependencyName entry
    if context.extensionExists name then none else some ⟨place "[install]" i, unknownExtension name⟩

/-! ### Configuration -/

/-- Whether a name has a dot in its first line that is not the first character. -/
def isQualified (name : String) : Bool :=
  match name.toList.takeWhile (· != '\n') with
  | [] => false
  | _ :: rest => rest.contains '.'

/-- Whether a value says what is imported. -/
def isImport : Value → Bool
  | .string s => s == "*"
  | .seq items => items.all (fun item => item.asString?.any isQualified)
  | _ => false

/-- The rules for the imports. -/
def importViolations (context : ManifestContext) (entries : List (Value × Value)) :
    List Violation :=
  entries.flatMap fun (k, v) =>
    let key := keyText k
    let path := "[config][import]" ++ bracket key
    (if context.extensionExists key then [] else [⟨path, unknownExtension key⟩])
      ++ (if isImport v then [] else [⟨path, notImport⟩])

/-- The rules for the actions under an expression. -/
def actionViolations (context : ManifestContext) (available : List String) (expression : String)
    (v : Value) : List Violation :=
  let path := "[config][actions]" ++ bracket expression
  match v.asMapping? with
  | none => [⟨path, if v.isNull then notBlank else notArray⟩]
  | some m =>
    if m.isEmpty then [⟨path, notBlank⟩]
    else
      let provider := ((Text.split '.' expression).head?).getD ""
      let installed :=
        if provider = "core" ∨ available.contains provider then []
        else [⟨path, "Config actions cannot be applied to " ++ expression ++ " because the "
          ++ provider ++ " extension is not installed, and is not installed by this recipe or any "
          ++ "of the recipes it depends on."⟩]
      installed ++ (m.keys.map keyText).filterMap fun id =>
        if context.actionExists id expression then none
        else some ⟨path ++ bracket id, "The \"" ++ id ++ "\" plugin does not exist."⟩

/-- The rule for a key of the configuration, which is an untagged mapping or null. -/
def sectionViolations (path : String) (rules : List (Value × Value) → List Violation) :
    Option Value → List Violation
  | none | some .null => []
  | some (.map entries) => rules entries
  | some _ => [⟨path, notArray⟩]

/-- The rules for the configuration. -/
def configViolations (context : ManifestContext) (install recipes : List String) (v : Value) :
    List Violation :=
  if v.isNull then []
  else match v.asMapping? with
    | none => [⟨"[config]", notArray⟩]
    | some m =>
      let available := context.availableExtensions install recipes
      keyViolations "[config]" configKeys m
        ++ sectionViolations "[config][import]" (importViolations context) (m.getName? "import")
        ++ sectionViolations "[config][actions]" (fun entries => entries.flatMap fun (k, v) =>
            actionViolations context available (keyText k) v) (m.getName? "actions")

/-- The rule for the content. -/
def contentViolations (v : Value) : List Violation :=
  if v.isNull || v.isSequence || v.isMapping then [] else [⟨"[content]", notArray⟩]

/-! ### The whole manifest -/

/-- The rules that a value breaks as the manifest of the recipe with an id. -/
def violations (context : ManifestContext) (id : String) (data : Value) : List Violation :=
  match data.asMapping? with
  | none => [⟨"", notArray⟩]
  | some root =>
    let rule (key : String) (f : Value → List Violation) : List Violation :=
      (root.getName? key).elim [] f
    let strings (key : String) : List String :=
      (root.getName? key).elim [] (fun v => (listedStrings v).map Prod.fst)
    keyViolations "" topKeys root
      ++ (root.getName? "name").elim [⟨"[name]", missing⟩] (lineViolations "[name]"
        "Recipe names cannot span multiple lines or contain control characters.")
      ++ rule "description" (descriptionViolations "[description]")
      ++ rule "type" (lineViolations "[type]"
        "Recipe type cannot span multiple lines or contain control characters.")
      ++ rule "recipes" (recipeViolations context id)
      ++ rule "install" (installViolations context)
      ++ rule "config" (configViolations context
        ((strings "install").map Extension.dependencyName) (strings "recipes"))
      ++ rule "content" contentViolations

/-- The manifest in a file, for the recipe with an id. -/
def parse (fs : Files) (context : ManifestContext) (path : Path) (id : String) :
    Except Error Manifest := do
  let data ← readValue fs path
  let vs := violations context id data
  if !vs.isEmpty then throw (.manifestInvalid path vs)
  match ofValue data with
  | .ok m => return m
  | .error e => throw (.manifestUnreadable path e)

end Manifest

end Cookbook
