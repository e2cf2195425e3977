import Cookbook.Path
import Cookbook.Site
import Cookbook.Text.Number

/-!
# Arguments of the command line

The options and commands there are, as data, and the reading of a list of arguments by them. The
help pages and the completion scripts are made from the same data.

Arguments are read at two levels: what is in front of the name of the command, and what follows it.
The options of the program may be given at both, and then the later one counts; at one level no
option may be given twice. An option that is given nowhere is taken from its environment variable,
and otherwise has its default.

## Main definitions

* `OptionSpec`, `CommandName`, `CommandName.spec`: what can be given.
* `readLevel`: the arguments of one level.
* `Request`: what a list of arguments asks for, and `Request.ofArguments`.
-/

namespace Cookbook

namespace CommandLine

/-! ### What can be given -/

/-- A shell that completion scripts can be made for. -/
inductive Shell where
  /-- The Bourne Again Shell. -/
  | bash
  /-- The Z Shell. -/
  | zsh
  /-- The Friendly Interactive Shell. -/
  | fish
  /-- PowerShell. -/
  | powershell
  /-- Elvish. -/
  | elvish
  deriving DecidableEq, Repr

namespace Shell

/-- All shells. -/
def all : List Shell := [bash, zsh, fish, powershell, elvish]

/-- The name of a shell. -/
def name : Shell → String
  | bash => "bash"
  | zsh => "zsh"
  | fish => "fish"
  | powershell => "powershell"
  | elvish => "elvish"

/-- The shell of a name. -/
def ofName? (s : String) : Option Shell := all.find? (·.name == s)

end Shell

/-- What the text of an argument has to be. -/
inductive ArgumentKind where
  /-- Any text. -/
  | text
  /-- A path, which is not empty. -/
  | path
  /-- A number of 64 bits. -/
  | count
  /-- The name of a shell. -/
  | shell
  deriving DecidableEq, Repr

/-- Whether a text is such an argument. -/
def ArgumentKind.accepts : ArgumentKind → String → Bool
  | text, _ => true
  | path, s => !s.isEmpty
  | count, s => (Text.number64? s).isSome
  | shell, s => (Shell.ofName? s).isSome

/-- An argument that is a value, by itself or after an option. -/
structure ValueSpec where
  /-- What stands for it in help pages. -/
  placeholder : String
  /-- What it has to be. -/
  kind : ArgumentKind

/-- An option. -/
structure OptionSpec where
  /-- Its name without the dashes. -/
  name : String
  /-- What it is for. -/
  about : String
  /-- The value it takes; a switch takes none. -/
  value : Option ValueSpec := none
  /-- The environment variable that it is taken from when it is not given. -/
  environment : Option String := none
  /-- The value that it has when nothing is said. -/
  fallback : String := ""

/-- The options of the program. No log is written, whatever the level. -/
def programOptions : List OptionSpec := [
  { name := "color", about := "Colorize output (always, never, auto)"
    value := some ⟨"WHEN", .text⟩, fallback := "auto" },
  { name := "log-level", about := "Set log level (error, warn, info, debug, trace)"
    value := some ⟨"LEVEL", .text⟩, fallback := "warn" },
  { name := "root", about := "Application root holding extensions, recipes and sites"
    value := some ⟨"DIR", .path⟩, environment := some "SITE_RECIPE_ROOT", fallback := "." },
  { name := "site", about := "Site directory, relative to the application root"
    value := some ⟨"DIR", .path⟩, environment := some "SITE_RECIPE_SITE_PATH"
    fallback := Site.defaultPath }]

/-- A command. -/
inductive CommandName where
  /-- Apply a recipe. -/
  | recipe
  /-- Check a recipe. -/
  | validate
  /-- Show what a recipe needs. -/
  | tree
  /-- List the checkpoints. -/
  | checkpoints
  /-- Go back to a checkpoint. -/
  | rollback
  /-- Print a completion script. -/
  | completions
  deriving DecidableEq, Repr

/-- What a command takes. -/
structure CommandSpec where
  /-- Its name. -/
  name : String
  /-- What it does. -/
  about : String
  /-- The value it needs, with what it is. -/
  word : Option (ValueSpec × String) := none
  /-- Its own options. -/
  options : List OptionSpec := []

namespace CommandName

/-- All commands. -/
def all : List CommandName := [recipe, validate, tree, checkpoints, rollback, completions]

/-- The directory of a recipe as an argument. -/
def recipeWord : ValueSpec × String :=
  (⟨"PATH", .path⟩, "Path to the recipe directory, the one holding recipe.yml")

/-- What a command takes. -/
def spec : CommandName → CommandSpec
  | recipe => { name := "recipe", about := "Apply a recipe to the site", word := recipeWord }
  | validate => {
      name := "validate", about := "Validate a recipe and its dependencies without applying it"
      word := recipeWord }
  | tree => {
      name := "tree", about := "Display the recipe dependency tree", word := recipeWord
      options := [
        { name := "depth", about := "Maximum depth to display in the tree"
          value := some ⟨"NUM", .count⟩ },
        { name := "order", about := "Also list the recipes in application order" }] }
  | checkpoints => {
      name := "checkpoints", about := "List the site's checkpoints"
      options := [{ name := "latest", about := "Only show the most recent checkpoint" }] }
  | rollback => {
      name := "rollback", about := "Roll the site's configuration back to a checkpoint"
      word := some (⟨"ID", .text⟩, "Id of the checkpoint, as listed by `checkpoints`") }
  | completions => {
      name := "completions", about := "Generate shell completion scripts"
      word := some (⟨"SHELL", .shell⟩, "The shell to generate completions for [possible values: "
        ++ ", ".intercalate (Shell.all.map Shell.name) ++ "]") }

/-- The command of a name. -/
def ofName? (s : String) : Option CommandName := all.find? (·.spec.name == s)

end CommandName

/-- The options of a level: those of the program, and after the name of a command its own. -/
def optionsOf : Option CommandName → List OptionSpec
  | none => programOptions
  | some c => programOptions ++ c.spec.options

/-! ### Reading a level -/

/-- What is wrong with a list of arguments. -/
inductive Misuse where
  /-- There is no such option, and no place for such an argument. -/
  | unexpected (argument : String)
  /-- An option has no value after it. -/
  | valueMissing (option : String)
  /-- A switch has a value. -/
  | valueUnexpected (option : String)
  /-- An option is given twice. -/
  | repeated (option : String)
  /-- A value is not what it has to be. -/
  | badValue (placeholder value : String)
  /-- The value that a command needs is not there. -/
  | wordMissing (placeholder : String)
  /-- No command is given. -/
  | commandMissing
  deriving DecidableEq, Repr

/-- The wording of a misuse. -/
def Misuse.message : Misuse → String
  | unexpected a => "unexpected argument '" ++ a ++ "' found"
  | valueMissing o => "a value is required for '--" ++ o ++ "' but none was supplied"
  | valueUnexpected o => "no value was expected for '--" ++ o ++ "'"
  | repeated o => "the argument '--" ++ o ++ "' cannot be used multiple times"
  | badValue p v => "invalid value '" ++ v ++ "' for '<" ++ p ++ ">'"
  | wordMissing p => "the following required arguments were not provided: <" ++ p ++ ">"
  | commandMissing => "a subcommand is required"

/-- Why reading stops before the end. -/
inductive Stop where
  /-- The arguments are misused. -/
  | misuse (m : Misuse)
  /-- Help is asked for, on a command or on all. -/
  | help (command : Option CommandName)
  /-- The version is asked for. -/
  | version
  deriving DecidableEq, Repr

/-- What was given at a level. -/
structure Given where
  /-- The options with their values. -/
  options : List (String × String) := []
  /-- The value for the command. -/
  word : Option String := none
  deriving DecidableEq, Repr

namespace Given

/-- The value of an option. -/
def get? (g : Given) (name : String) : Option String := NameMap.lookup name g.options

/-- Whether an option is given. -/
def has (g : Given) (name : String) : Bool := (g.get? name).isSome

/-- Add an option. -/
def addOption (g : Given) (o : OptionSpec) (value : String) : Except Stop Given := do
  if g.has o.name then throw (.misuse (.repeated o.name))
  match o.value with
  | some v => if !v.kind.accepts value then throw (.misuse (.badValue v.placeholder value))
  | none => pure ()
  return { g with options := (o.name, value) :: g.options }

/-- Add the value for a command. -/
def addWord (c : Option CommandName) (g : Given) (value : String) : Except Stop Given := do
  match c.bind (·.spec.word), g.word with
  | some (v, _), none =>
    if !v.kind.accepts value then throw (.misuse (.badValue v.placeholder value))
    return { g with word := some value }
  | _, _ => throw (.misuse (.unexpected value))

end Given

/-- Whether an argument is for an option. A dash alone is not. -/
def isDashed (argument : String) : Bool := Text.hasStart "-" argument && argument != "-"

/-- The option that an argument is for, with the value after an equals sign. -/
def readOption (c : Option CommandName) (argument : String) :
    Except Stop (OptionSpec × Option String) := do
  match Text.stripStart? "--" argument with
  | some long =>
    let (name, value) := match Text.splitOnce? '=' long with
      | some (name, value) => (name, some value)
      | none => (long, none)
    if name == "help" && value.isNone then throw (.help c)
    if name == "version" && value.isNone && c.isNone then throw .version
    match (optionsOf c).find? (·.name == name) with
    | none => throw (.misuse (.unexpected argument))
    | some o =>
      if o.value.isNone && value.isSome then throw (.misuse (.valueUnexpected name))
      return (o, value)
  | none =>
    match argument.toList[1]? with
    | some 'h' => throw (.help c)
    | some 'V' => throw (if c.isNone then .version else .misuse (.unexpected argument))
    | _ => throw (.misuse (.unexpected argument))

/-- Read the arguments of a level. In front of the command, reading ends at the first argument that
is for no option; the answer has what is left from there. After two dashes nothing is an option. -/
def readLevel (c : Option CommandName) : Given → List String → Except Stop (Given × List String)
  | g, [] => .ok (g, [])
  | g, argument :: rest =>
    if argument == "--" then do return (← rest.foldlM (Given.addWord c) g, [])
    else if isDashed argument then
      match readOption c argument with
      | .error s => .error s
      | .ok (o, some value) => do readLevel c (← g.addOption o value) rest
      | .ok (o, none) =>
        if o.value.isNone then do readLevel c (← g.addOption o "") rest
        else
          match rest with
          | value :: rest =>
            if isDashed value then .error (.misuse (.valueMissing o.name))
            else do readLevel c (← g.addOption o value) rest
          | [] => .error (.misuse (.valueMissing o.name))
    else if c.isNone then .ok (g, argument :: rest)
    else do readLevel c (← g.addWord c argument) rest

/-! ### Requests -/

/-- The options that every command has. -/
structure Options where
  /-- When to colour: `always`, `never`, or anything else to see for itself. -/
  color : String
  /-- The root of the application. -/
  root : Path
  /-- The directory of the site below it. -/
  site : String
  deriving DecidableEq, Repr

/-- A command with what it takes. -/
inductive Command where
  /-- Apply the recipe in a directory. -/
  | recipe (dir : Path)
  /-- Check the recipe in a directory. -/
  | validate (dir : Path)
  /-- Show what the recipe in a directory needs, up to a depth and with the order or without. -/
  | tree (dir : Path) (depth : Option Nat) (order : Bool)
  /-- List the checkpoints, or the latest one. -/
  | checkpoints (latest : Bool)
  /-- Go back to a checkpoint. -/
  | rollback (id : String)
  /-- Print a completion script. -/
  | completions (shell : Shell)
  deriving DecidableEq, Repr

/-- What a list of arguments asks for. -/
inductive Request where
  /-- Carry out a command. -/
  | run (options : Options) (command : Command)
  /-- Print a help page. -/
  | help (command : Option CommandName)
  /-- Print the version. -/
  | version
  /-- Nothing that can be carried out. -/
  | misuse (m : Misuse)
  deriving DecidableEq, Repr

/-- What is asked for when reading stops. -/
def Stop.request : Stop → Request
  | misuse m => .misuse m
  | help c => .help c
  | version => .version

/-- The value of an option of the program. A bad value in the environment is a misuse, unless no
level needs it. -/
def valueOf (environment : NameMap String) (outer inner : Given) (o : OptionSpec) :
    Except Stop String := do
  let fromVariable := o.environment.bind environment.get?
  if !(outer.has o.name && inner.has o.name) then
    if let some value := fromVariable then
      let _ ← Given.addOption {} o value
  return ((((inner.get? o.name).or (outer.get? o.name)).or fromVariable).getD o.fallback)

/-- The command with what was given for it. -/
def Command.ofGiven (c : CommandName) (g : Given) : Except Stop Command := do
  let word := match c.spec.word, g.word with
    | some (v, _), none => throw (.misuse (.wordMissing v.placeholder))
    | _, w => pure (w.getD "")
  match c with
  | .recipe => return .recipe ⟨← word⟩
  | .validate => return .validate ⟨← word⟩
  | .tree => return .tree ⟨← word⟩ ((g.get? "depth").bind Text.number64?) (g.has "order")
  | .checkpoints => return .checkpoints (g.has "latest")
  | .rollback => return .rollback (← word)
  | .completions =>
    let name ← word
    match Shell.ofName? name with
    | some s => return .completions s
    | none => throw (.misuse (.badValue "SHELL" name))

/-- The command that help is asked for: nothing means all, as does help on help. -/
def helpTopic : List String → Except Stop (Option CommandName)
  | [] | ["help"] => .ok none
  | [name] =>
    match CommandName.ofName? name with
    | some c => .ok (some c)
    | none => .error (.misuse (.unexpected name))
  | _ :: name :: _ => .error (.misuse (.unexpected name))

/-- Read all arguments. -/
def readArguments (environment : NameMap String) (arguments : List String) :
    Except Stop (Options × Command) := do
  let (outer, rest) ← readLevel none {} arguments
  match rest with
  | [] => throw (.misuse .commandMissing)
  | "help" :: rest => throw (.help (← helpTopic rest))
  | name :: rest =>
    match CommandName.ofName? name with
    | none => throw (.misuse (.unexpected name))
    | some c =>
      let (inner, _) ← readLevel (some c) {} rest
      let command ← Command.ofGiven c inner
      let values ← programOptions.mapM fun o => do
        return (o.name, ← valueOf environment outer inner o)
      let value (name : String) : String := (NameMap.lookup name values).getD ""
      return ({ color := value "color", root := ⟨value "root"⟩, site := value "site" }, command)

/-- What a list of arguments asks for. -/
def Request.ofArguments (environment : NameMap String) (arguments : List String) : Request :=
  match readArguments environment arguments with
  | .ok (options, command) => .run options command
  | .error s => s.request

end CommandLine

end Cookbook
