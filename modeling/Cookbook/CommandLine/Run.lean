import Cookbook.CommandLine.Appearance
import Cookbook.CommandLine.Completion
import Cookbook.CommandLine.Outline

/-!
# Running commands

A command runs on a machine: its files, the variables of its environment and its clock. It prints
lines and may fail; what it printed before, and what it did to the files, stays. A failure is
reported with what caused it and ends in exit code 1. Arguments that are misused end in exit code 2.

## Main definitions

* `Machine`, `Output`: what a command runs on and what comes out.
* `CommandM`: commands that print lines and may fail.
* `run`: run a list of arguments.
-/

namespace Cookbook

namespace Error

/-- The messages of what caused a failure, nearest first. -/
def causes : Error → List String
  | io detail | yaml detail | json detail | regex detail | glob detail => [detail]
  | rollbackFailed source _ _ => source.message :: source.causes
  | _ => []

end Error

namespace CommandLine

/-- What a command runs on. -/
structure Machine where
  /-- The files. -/
  files : Files
  /-- The variables of the environment. -/
  environment : NameMap String := NameMap.empty
  /-- Whether output goes to a terminal. -/
  terminal : Bool := false
  /-- The time, in seconds. -/
  now : Nat := 0
  /-- The number that the next id for an entity is made from. -/
  nextUuid : Nat := 0

/-- What comes out of a command. -/
structure Output where
  /-- The exit code. -/
  code : Nat := 0
  /-- What it printed. -/
  out : String := ""
  /-- What it printed on its failure. -/
  err : String := ""
  deriving DecidableEq, Repr

/-! ### Failures -/

/-- A failure as it is reported: its message, and those of its causes. -/
structure Failure where
  /-- The message. -/
  message : String
  /-- The messages of the causes, nearest first. -/
  causes : List String := []
  deriving DecidableEq, Repr

namespace Failure

/-- A failure with its causes. -/
def ofError (e : Error) : Failure := { message := e.message, causes := e.causes }

/-- A text with its lines indented: the first with its own mark, the others by as many blanks. -/
def indented (mark s : String) : String :=
  mark ++ ("\n" ++ "".pushn ' ' mark.length).intercalate (Text.split '\n' s)

/-- The report of a failure. Several causes are numbered. -/
def report (f : Failure) : String :=
  let mark (n : Nat) : String :=
    let number := toString n
    if f.causes.length ≤ 1 then "    " else "".pushn ' ' (5 - number.length) ++ number ++ ": "
  let list := f.causes.zipIdx.map fun (c, n) => "\n" ++ indented (mark n) c
  let caused := if list.isEmpty then "" else "\n\nCaused by:" ++ String.join list
  "Error: " ++ f.message ++ caused ++ "\n"

end Failure

/-! ### Commands -/

/-- The state of a command that runs. -/
structure Progress where
  /-- What it runs on. -/
  machine : Machine
  /-- The lines that it printed, last first. -/
  printed : List String := []

/-- A command that prints lines and may fail. -/
abbrev CommandM := ExceptT Failure (StateM Progress)

namespace CommandM

/-- Print a line. -/
def printLine (s : String) : CommandM Unit := modify fun p => { p with printed := s :: p.printed }

/-- Print several lines. -/
def printLines (l : List String) : CommandM Unit := l.forM printLine

/-- Fail with a message. -/
def fail {α : Type} (message : String) : CommandM α := throw { message }

/-- The site that the options name. -/
def openSite (o : Options) : CommandM Site := do
  let m := (← get).machine
  match Site.open m.files o.root o.site m.now m.nextUuid with
  | .ok site => return site
  | .error e => fail ("Failed to open site " ++ (o.root.join o.site).text ++ ": " ++ e.message)

/-- Act on a site. What that does to the files stays, also when it fails. -/
def act {α : Type} (site : Site) (x : CheckpointM α) : CommandM (Except Error α) := do
  let (r, state) := (ExceptT.run x).run site.state
  modify fun p => { p with machine := { p.machine with files := state.workspace.files } }
  return r

/-- The outcome of acting on a site. -/
def outcome {α : Type} : Except Error α → CommandM α
  | .ok a => return a
  | .error e => throw (Failure.ofError e)

/-- The tree of the recipe in a directory. -/
def resolve (site : Site) (dir : Path) : CommandM (Except Error RecipeTree) :=
  act site (CheckpointM.active (ConfigM.ask fun fs active => site.app.resolve fs active dir))

end CommandM

open CommandM

/-- The directory of a recipe that an argument means: from the working directory if it is there, and
otherwise from the root of the application. It is canonical if it is there. -/
def recipeDirectory (fs : Files) (o : Options) (p : Path) : Path :=
  let dir := if p.isAbsolute || fs.holds p then p else o.root.join p.text
  match fs.canonical dir with
  | .ok p => p
  | .error _ => dir

/-- Apply a recipe. -/
def applyRecipe (look : Appearance) (o : Options) (p : Path) : CommandM Unit := do
  let fs := (← get).machine.files
  let dir := recipeDirectory fs o p
  if !fs.isDir dir then fail (dir.text ++ " does not exist")
  let site ← openSite o
  let report ← outcome (← act site (site.app.apply dir))
  if let some notice := report.notice? then printLine (look.notice notice)
  printLine (look.success (report.recipe ++ " applied successfully"))

/-- The lines that number items from 1 up. -/
def numbered (indent : String) (items : List String) : List String :=
  items.zipIdx.map fun (s, n) => indent ++ toString (n + 1) ++ ". " ++ s

/-- What is said of a recipe that may be applied. -/
def summary (look : Appearance) (t : RecipeTree) : List String :=
  let order := t.executionOrder
  let extensions := (order.flatMap (·.install.extensions)).eraseDups
  let withContent := (order.filter (·.hasContent)).map (·.id)
  ["", Sign.text look .summary ++ " Recipe Summary:",
    "   Name: " ++ t.recipe.name,
    "   Recipes to apply: " ++ toString order.length]
  ++ numbered "     " (order.map fun r => r.name ++ " (" ++ r.id ++ ")")
  ++ ["   Extensions to install: "
      ++ (if extensions.isEmpty then "none" else ", ".intercalate extensions),
    "   Config actions: " ++ toString (order.flatMap (·.config.actions)).length]
  ++ (if withContent.isEmpty then []
    else [Sign.text look .warning ++ " Default content is not imported: "
      ++ ", ".intercalate withContent])

/-- Check a recipe. -/
def validateRecipe (look : Appearance) (o : Options) (p : Path) : CommandM Unit := do
  let dir := recipeDirectory (← get).machine.files o p
  printLine (Sign.text look .scan ++ " Validating recipe: " ++ dir.text)
  let site ← openSite o
  match ← resolve site dir with
  | .ok t =>
    printLine (Sign.text look .done ++ " Recipe is valid")
    printLines (summary look t)
  | .error e =>
    printLine (Sign.text look .failed ++ " Recipe is invalid")
    throw (Failure.ofError e)

/-- Show what a recipe needs. -/
def showTree (look : Appearance) (o : Options) (p : Path) (depth : Option Nat) (order : Bool) :
    CommandM Unit := do
  let dir := recipeDirectory (← get).machine.files o p
  printLine (Sign.text look .tree ++ " Recipe dependency tree for: " ++ dir.text)
  let site ← openSite o
  match ← resolve site dir with
  | .error e => fail ("Failed to resolve recipe dependencies: " ++ e.message)
  | .ok t =>
    printLines (Outline.ofTree depth t).lines
    if order then
      printLines ["", Sign.text look .order ++ " Application order:"]
      printLines (numbered "   " (t.executionOrder.map (·.id)))

/-- The line of a checkpoint in the list of them. -/
def checkpointRow (id timestamp label : String) : String :=
  padded 6 id ++ " " ++ padded 12 timestamp ++ " " ++ label

/-- List the checkpoints. -/
def listCheckpoints (look : Appearance) (o : Options) (latest : Bool) : CommandM Unit := do
  let site ← openSite o
  let log := site.state.log
  let listed := if latest then log.latest?.toList else log.entries
  if listed.isEmpty then printLine (Sign.text look .nothing ++ " No checkpoints")
  else
    printLine (checkpointRow "ID" "TIMESTAMP" "LABEL")
    printLines (listed.map fun c => checkpointRow c.id (toString c.timestamp) c.label)

/-- Go back to a checkpoint. -/
def rollBack (look : Appearance) (o : Options) (id : String) : CommandM Unit := do
  let site ← openSite o
  let done ← outcome (← act site (CheckpointM.rollback site.app.catalog id))
  let count (n : Nat) (what : String) : String := toString n ++ " " ++ what
  let names (title : String) (l : List String) : List String :=
    if l.isEmpty then [] else ["   " ++ title ++ ": " ++ ", ".intercalate l]
  printLine (look.success ("Rolled back to checkpoint " ++ id))
  printLine (Sign.text look .summary ++ " " ++ ", ".intercalate
    [count done.created "created", count done.updated "updated", count done.deleted "deleted"])
  printLines (names "Installed" done.installed ++ names "Uninstalled" done.uninstalled)

/-- Carry out a command. -/
def Command.run (look : Appearance) (o : Options) : Command → CommandM Unit
  | recipe dir => applyRecipe look o dir
  | validate dir => validateRecipe look o dir
  | tree dir depth order => showTree look o dir depth order
  | checkpoints latest => listCheckpoints look o latest
  | rollback id => rollBack look o id
  | completions shell => printLines (completionScript shell)

/-- Lines as a text. -/
def linesText (l : List String) : String := String.join (l.map (· ++ "\n"))

/-- Run a list of arguments on a machine; the answer has the files as they are after that. -/
def run (m : Machine) (arguments : List String) : Output × Files :=
  match Request.ofArguments m.environment arguments with
  | .help c => ({ out := linesText (helpPage c) }, m.files)
  | .version => ({ out := linesText [versionLine] }, m.files)
  | .misuse e => ({ code := 2, err := linesText e.report }, m.files)
  | .run o c =>
    let look := Appearance.ofOption o.color m.environment m.terminal
    let (r, p) := (ExceptT.run (c.run look o)).run { machine := m }
    let out := linesText p.printed.reverse
    match r with
    | .ok () => ({ out }, p.machine.files)
    | .error f => ({ code := 1, out, err := f.report }, p.machine.files)

end CommandLine

end Cookbook
