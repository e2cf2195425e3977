import Cookbook.Path
import Cookbook.Files
import Cookbook.Yaml.Error

/-!
# Failures

Everything that can go wrong when recipes are loaded and applied, by cause. The wording of each
failure is in `Error.message` alone.

## Main definitions

* `Violation`: one fault of a recipe's manifest.
* `Error`: the causes.
* `Error.message`: their wording.
* `Error.isInvalidConfig`: whether new configuration was refused by its schema.
-/

namespace Cookbook

/-- A fault of a manifest: where it is and what is wrong. -/
structure Violation where
  /-- The place, as keys in brackets. -/
  path : String
  /-- What is wrong. -/
  message : String
  deriving DecidableEq, Repr

/-- A cause of failure. -/
inductive Error where
  /-- A recipe directory has no manifest. -/
  | manifestMissing (path : Path)
  /-- A manifest cannot be read or is no document. -/
  | manifestUnreadable (path : Path) (detail : String)
  /-- A manifest breaks rules, all of which are listed. -/
  | manifestInvalid (path : Path) (violations : List Violation)
  /-- A recipe is in none of the search paths. -/
  | recipeNotFound (recipe : String) (searchPaths : List Path)
  /-- Recipes require each other in a circle, given by its recipes with the first one repeated. -/
  | circularDependency (cycle : List String)
  /-- Recipes require each other without end, under names that hide it. -/
  | recipesTooDeep
  /-- Configuration of a recipe is there already with other content. -/
  | preExistingConfig (recipe : String) (names : List String)
  /-- No action has this id or shorthand. -/
  | actionNotFound (id : String)
  /-- Two actions have the same shorthand for an entity type. -/
  | duplicateShorthand (first second entityType : String)
  /-- A config action failed. -/
  | configAction (detail : String)
  /-- An entity method was given data that its parameters do not take. -/
  | entityMethod (detail : String)
  /-- A new object breaks its schema. -/
  | invalidConfig (name : String) (violations : List String)
  /-- The label of a checkpoint is in use. -/
  | checkpointExists (label : String)
  /-- No checkpoint has this id. -/
  | unknownCheckpoint (id : String)
  /-- There are no checkpoints to read from. -/
  | noCheckpoints
  /-- No number of 64 bits is left for the id of a checkpoint. -/
  | idsExhausted
  /-- No extension has this name. -/
  | unknownExtension (name : String)
  /-- The storage does not allow changes. -/
  | readOnlyStorage (operation : String)
  /-- An import cannot go on. -/
  | configImport (detail : String)
  /-- A recipe failed, and so did going back to the checkpoint made before it. -/
  | rollbackFailed (source : Error) (checkpoint : String) (rollback : Error)
  /-- An object or a file of configuration is not understood. -/
  | config (name : String) (detail : String)
  /-- A file operation failed. -/
  | io (detail : String)
  /-- A document cannot be read or written. -/
  | yaml (detail : String)
  /-- A list of checkpoints cannot be read. -/
  | json (detail : String)
  /-- A pattern of a schema is malformed. -/
  | regex (detail : String)
  /-- A name pattern is malformed. -/
  | glob (detail : String)
  /-- A lock was left by a failure. -/
  | lockPoisoned (context : String)
  deriving Repr, Inhabited

namespace Error

/-- A failed file operation. -/
def ofFile (e : FileFailure) : Error := .io e.message

/-- A document that cannot be read or written. -/
def ofYaml (e : Yaml.Failure) : Error := .yaml e.message

/-- Each text on a line of its own. -/
def bullets (items : List String) : String := String.join (items.map ("\n  - " ++ ·))

/-- The wording of a failure. -/
def message : Error → String
  | manifestMissing path => "There is no " ++ path.text ++ " file"
  | manifestUnreadable path detail =>
    "Recipe manifest " ++ path.text ++ " could not be read: " ++ detail
  | manifestInvalid path violations =>
    "Validation errors were found in " ++ path.text ++ ":"
      ++ bullets (violations.map fun v => v.path ++ ": " ++ v.message)
  | recipeNotFound recipe searchPaths =>
    "Can not find the " ++ recipe ++ " recipe, search paths: "
      ++ ", ".intercalate (searchPaths.map Path.text)
  | circularDependency cycle =>
    "Circular recipe dependency detected: " ++ " -> ".intercalate cycle
  | recipesTooDeep => "The recipes require each other without end"
  | preExistingConfig _ names =>
    "The configuration '" ++ "', '".intercalate names
      ++ "' exists already and does not match the recipe's configuration"
  | actionNotFound id => "The \"" ++ id ++ "\" plugin does not exist."
  | duplicateShorthand first second entityType =>
    "The plugins '" ++ first ++ "' and '" ++ second
      ++ "' both resolve to the same shorthand action ID for the '" ++ entityType
      ++ "' entity type"
  | configAction detail => detail
  | entityMethod detail => detail
  | invalidConfig name violations =>
    "There were validation errors in " ++ name ++ ":" ++ bullets violations
  | checkpointExists label => "A checkpoint with the label '" ++ label ++ "' already exists"
  | unknownCheckpoint id => "The checkpoint '" ++ id ++ "' does not exist"
  | noCheckpoints => "This storage cannot be read because there are no checkpoints"
  | idsExhausted => "The ids of checkpoints are used up"
  | unknownExtension name => "Unknown extension: " ++ name
  | readOnlyStorage operation =>
    "Storage is read-only: " ++ operation ++ " is not supported"
  | configImport detail => "Config import error: " ++ detail
  | rollbackFailed source checkpoint rollback =>
    source.message ++ "\nRolling back to checkpoint " ++ checkpoint ++ " failed as well: "
      ++ rollback.message
  | config name detail => "Configuration error in " ++ name ++ ": " ++ detail
  | io detail => "I/O error: " ++ detail
  | yaml detail => "YAML parsing error: " ++ detail
  | json detail => "JSON error: " ++ detail
  | regex detail => "Regex error: " ++ detail
  | glob detail => "Glob pattern error: " ++ detail
  | lockPoisoned context => "Lock poisoned: " ++ context

/-- Whether new configuration was refused by its schema, also when going back failed after that. -/
def isInvalidConfig : Error → Bool
  | invalidConfig .. => true
  | rollbackFailed source _ _ => source.isInvalidConfig
  | _ => false

end Error

end Cookbook
