import Cookbook.CommandLine.Help

/-!
# Completion scripts

A script tells a shell what may follow on the command line: the commands and the options of the
program, and after a command its options. The scripts are made from the data that arguments are read
by.

## Main definitions

* `completionScript`: the script for a shell.
-/

namespace Cookbook

namespace CommandLine

/-- A name that something goes by, with what it is for. -/
abbrev Candidate := String × String

/-- The options of a level with their dashes, and the request for help. -/
def optionCandidates (c : Option CommandName) : List Candidate :=
  (optionsOf c).map (fun o => ("--" ++ o.name, o.about)) ++ [("--help", "Print help")]
    ++ (if c.isNone then [("--version", "Print version")] else [])

/-- The names of the commands. -/
def commandCandidates : List Candidate :=
  CommandName.all.map (fun c => (c.spec.name, c.spec.about))
    ++ [("help", "Print this message or the help of the given subcommand(s)")]

/-- What may follow the name of a command, or the name of the program: options, then the words
themselves where they are known. -/
def candidates : Option CommandName → List Candidate
  | none => optionCandidates none ++ commandCandidates
  | some .completions =>
    optionCandidates (some .completions) ++ Shell.all.map (fun s => (s.name, ""))
  | some c => optionCandidates (some c)

/-- A text in single quotes, with each quote in it written by some other text. -/
def quoted (quote : String) (s : String) : String :=
  "'" ++ String.join (s.toList.map fun c => if c == '\'' then quote else c.toString) ++ "'"

/-- The names of candidates, with blanks between. -/
def nameList (l : List Candidate) : String := " ".intercalate (l.map Prod.fst)

/-- The script for the Bourne Again Shell. -/
def bashScript : List String :=
  let case (c : CommandName) : String :=
    "            " ++ c.spec.name ++ ") opts=\"" ++ nameList (candidates (some c)) ++ "\"; break ;;"
  ["_" ++ programName ++ "() \x7b",
    "    local cur opts word",
    "    COMPREPLY=()",
    "    cur=\"$\x7bCOMP_WORDS[COMP_CWORD]\x7d\"",
    "    opts=\"" ++ nameList (candidates none) ++ "\"",
    "    for word in \"$\x7bCOMP_WORDS[@]:1:COMP_CWORD-1\x7d\"; do",
    "        case \"$word\" in"]
  ++ CommandName.all.map case
  ++ ["        esac",
    "    done",
    "    COMPREPLY=( $(compgen -W \"$opts\" -f -- \"$cur\") )",
    "\x7d",
    "complete -F _" ++ programName ++ " -o bashdefault -o default " ++ programName]

/-- The script for the Z Shell. -/
def zshScript : List String :=
  let described (e : Candidate) : String :=
    "        " ++ quoted "'\\''" (e.1 ++ ":" ++ e.2)
  let case (c : CommandName) : List String :=
    ["            " ++ c.spec.name ++ ") choices=("]
      ++ (candidates (some c)).map described ++ ["        ); break ;;"]
  ["#compdef " ++ programName,
    "",
    "_" ++ programName ++ "() \x7b",
    "    local word",
    "    local -a choices",
    "    choices=("]
  ++ (candidates none).map described
  ++ ["    )",
    "    for word in \"$\x7bwords[@]:1:CURRENT-2\x7d\"; do",
    "        case \"$word\" in"]
  ++ CommandName.all.flatMap case
  ++ ["        esac",
    "    done",
    "    _describe " ++ programName ++ " choices",
    "    _files",
    "\x7d",
    "",
    "compdef _" ++ programName ++ " " ++ programName]

/-- A line of the script for the Friendly Interactive Shell: under a condition, one candidate. Names
of options are written without their dashes. -/
def fishLine (condition : String) (e : Candidate) : String :=
  let what := match Text.stripStart? "--" e.1 with
    | some name => "-l " ++ name
    | none => "-f -a " ++ e.1
  "complete -c " ++ programName ++ " -n \"" ++ condition ++ "\" " ++ what ++ " -d "
    ++ quoted "\\'" e.2

/-- The script for the Friendly Interactive Shell. -/
def fishScript : List String :=
  (candidates none).map (fishLine "__fish_use_subcommand")
    ++ CommandName.all.flatMap fun c =>
      (candidates (some c)).map (fishLine ("__fish_seen_subcommand_from " ++ c.spec.name))

/-- The script for PowerShell. -/
def powershellScript : List String :=
  let result (e : Candidate) : String :=
    let about := if e.2.isEmpty then e.1 else e.2
    "            [System.Management.Automation.CompletionResult]::new(" ++ quoted "''" e.1 ++ ", "
      ++ quoted "''" e.1 ++ ", 'ParameterValue', " ++ quoted "''" about ++ ")"
  let case (name : String) (l : List Candidate) : List String :=
    ["        " ++ quoted "''" name ++ " \x7b"] ++ l.map result
      ++ ["            break", "        \x7d"]
  ["Register-ArgumentCompleter -Native -CommandName " ++ quoted "''" programName
      ++ " -ScriptBlock \x7b",
    "    param($wordToComplete, $commandAst, $cursorPosition)",
    "    $names = " ++ ", ".intercalate (CommandName.all.map fun c => quoted "''" c.spec.name),
    "    $words = $commandAst.CommandElements | Select-Object -Skip 1",
    "    $command = $words | Where-Object \x7b $names -contains \"$_\" \x7d"
      ++ " | Select-Object -First 1",
    "    $choices = @(switch (\"$command\") \x7b"]
  ++ case "" (candidates none)
  ++ CommandName.all.flatMap (fun c => case c.spec.name (candidates (some c)))
  ++ ["    \x7d)",
    "    $choices | Where-Object \x7b $_.CompletionText -like \"$wordToComplete*\" \x7d",
    "\x7d"]

/-- The script for Elvish. -/
def elvishScript : List String :=
  let result (e : Candidate) : String :=
    "            edit:complex-candidate " ++ quoted "''" e.1 ++ " &display="
      ++ quoted "''" (if e.2.isEmpty then e.1 else e.1 ++ "  " ++ e.2)
  let case (name : String) (l : List Candidate) : List String :=
    ["        &" ++ quoted "''" name ++ "= \x7b"] ++ l.map result ++ ["        \x7d"]
  ["set edit:completion:arg-completer[" ++ programName ++ "] = \x7b|@words|",
    "    var completions = ["]
  ++ case "" (candidates none)
  ++ CommandName.all.flatMap (fun c => case c.spec.name (candidates (some c)))
  ++ ["    ]",
    "    var command = ''",
    "    for word $words[1..-1] \x7b",
    "        if (has-key $completions $word) \x7b",
    "            set command = $word",
    "            break",
    "        \x7d",
    "    \x7d",
    "    $completions[$command]",
    "\x7d"]

/-- The completion script for a shell. -/
def completionScript : Shell → List String
  | .bash => bashScript
  | .zsh => zshScript
  | .fish => fishScript
  | .powershell => powershellScript
  | .elvish => elvishScript

end CommandLine

end Cookbook
