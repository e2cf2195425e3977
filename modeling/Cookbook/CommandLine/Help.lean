import Cookbook.CommandLine.Arguments

/-!
# Help pages

The help pages list what can be given, from the same data that the arguments are read by.

## Main definitions

* `helpPage`: the page on a command, or on all commands.
* `versionLine`: the name and the version of the program.
* `Misuse.report`: what is said of arguments that are misused.
-/

namespace Cookbook

namespace CommandLine

/-- The name of the program. -/
def programName : String := "site-recipe"

/-- The name and the version of the program. -/
def versionLine : String := programName ++ " 0.1.0"

/-- What the program is for. -/
def programAbout : String :=
  "Applies declarative site recipes: extension installs, config import and config actions with "
    ++ "checkpoint rollback"

/-- A text filled up with blanks. -/
def padded (width : Nat) (s : String) : String := s.pushn ' ' (width - s.length)

/-- A table of two columns under a heading. -/
def table (heading : String) (rows : List (String × String)) : List String :=
  let width := (rows.map (·.1.length)).foldl max 0
  if rows.isEmpty then []
  else "" :: (heading ++ ":") :: rows.map fun (a, b) => "  " ++ padded width a ++ "  " ++ b

/-- The row of an option. -/
def OptionSpec.row (o : OptionSpec) : String × String :=
  let value := match o.value with
    | some v => " <" ++ v.placeholder ++ ">"
    | none => ""
  let environment := match o.environment with
    | some v => " [env: " ++ v ++ "=]"
    | none => ""
  let fallback := if o.fallback.isEmpty then "" else " [default: " ++ o.fallback ++ "]"
  ("    --" ++ o.name ++ value, o.about ++ environment ++ fallback)

/-- How a command is called. -/
def usage : Option CommandName → String
  | none => "Usage: " ++ programName ++ " [OPTIONS] <COMMAND>"
  | some c =>
    "Usage: " ++ programName ++ " " ++ c.spec.name ++ " [OPTIONS]"
      ++ (match c.spec.word with
        | some (v, _) => " <" ++ v.placeholder ++ ">"
        | none => "")

/-- The page on a command, or on all commands. -/
def helpPage (c : Option CommandName) : List String :=
  let about := match c with
    | some c => c.spec.about
    | none => programAbout
  let commands := match c with
    | some _ => []
    | none =>
      CommandName.all.map (fun c => (c.spec.name, c.spec.about))
        ++ [("help", "Print this message or the help of the given subcommand(s)")]
  let words := ((c.bind (·.spec.word)).toList).map fun (v, about) =>
    ("<" ++ v.placeholder ++ ">", about)
  let last := ("-h, --help", "Print help")
    :: (if c.isNone then [("-V, --version", "Print version")] else [])
  [about, "", usage c] ++ table "Commands" commands ++ table "Arguments" words
    ++ table "Options" ((optionsOf c).map OptionSpec.row ++ last)

/-- What is said of arguments that are misused. -/
def Misuse.report (m : Misuse) : List String :=
  ["error: " ++ m.message, "", usage none, "", "For more information, try '--help'."]

end CommandLine

end Cookbook
