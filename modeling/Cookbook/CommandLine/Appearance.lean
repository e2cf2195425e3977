import Cookbook.NameMap

/-!
# The look of the output

Output is plain, or it has signs and colours. Whether it has signs is decided by the option for
colours, and otherwise by the environment. Colours are escape sequences; they are written only where
a terminal shows them or the environment forces them, also when signs were asked for by the option.

## Main definitions

* `Appearance`: the look.
* `Appearance.ofOption`: the look that the option and the environment ask for.
* `Appearance.success`, `Appearance.notice`, `Sign.text`: what lines start with.
-/

namespace Cookbook

namespace CommandLine

/-- How output looks. -/
structure Appearance where
  /-- Whether there are signs. -/
  hasSigns : Bool
  /-- Whether there are escape sequences for colours. -/
  hasEscapes : Bool
  deriving DecidableEq, Repr

/-- What a line is about. -/
inductive Sign where
  /-- Something is being checked. -/
  | scan
  /-- Something is in order. -/
  | done
  /-- Something failed. -/
  | failed
  /-- Figures. -/
  | summary
  /-- Nothing is there. -/
  | nothing
  /-- Something to be aware of. -/
  | warning
  /-- A tree. -/
  | tree
  /-- An order. -/
  | order
  deriving DecidableEq, Repr

/-- The look of a sign: a picture, or plain letters. -/
def Sign.text (look : Appearance) (s : Sign) : String :=
  let (picture, plain) := match s with
    | scan => ("🔍", "[SCAN]")
    | done => ("✅", "[OK]")
    | failed => ("❌", "[ERR]")
    | summary => ("📊", "[INFO]")
    | nothing => ("📭", "[INFO]")
    | warning => ("⚠️", "[WARN]")
    | tree => ("🌳", "[TREE]")
    | order => ("📋", "[ORDER]")
  if look.hasSigns then picture else plain

namespace Appearance

/-- Whether a terminal shows colours. -/
def terminalHasColors (environment : NameMap String) (terminal : Bool) : Bool :=
  terminal && !environment.contains "NO_COLOR"
    && (environment.get? "TERM").any (· != "dumb")

/-- Whether the environment asks for signs. A variable against colours counts more than one for
them, and `NO_COLOR` counts whatever its value is. -/
def wantsSigns (environment : NameMap String) (terminal : Bool) : Bool :=
  if environment.contains "NO_COLOR" then false
  else if environment.get? "CLICOLOR" == some "0" then false
  else if (environment.get? "CLICOLOR_FORCE").any (fun v => v != "0" && !v.isEmpty) then true
  else if environment.get? "TERM" == some "dumb" then false
  else terminalHasColors environment terminal

/-- Whether escape sequences are written. Here an empty `CLICOLOR_FORCE` forces them too. -/
def wantsEscapes (environment : NameMap String) (terminal : Bool) : Bool :=
  terminalHasColors environment terminal && environment.get? "CLICOLOR" != some "0"
    || (environment.get? "CLICOLOR_FORCE").any (· != "0")

/-- The look that the option for colours and the environment ask for. The words of the option are
read without regard to case; other words leave it to the environment. -/
def ofOption (color : String) (environment : NameMap String) (terminal : Bool) : Appearance where
  hasSigns := match color.toLower with
    | "always" => true
    | "never" => false
    | _ => wantsSigns environment terminal
  hasEscapes := wantsEscapes environment terminal

/-- A text with escape sequences around it. -/
def escaped (look : Appearance) (codes : List Nat) (s : String) : String :=
  let code (n : Nat) : String := "\x1b[" ++ toString n ++ "m"
  if look.hasEscapes then String.join (codes.map code) ++ s ++ code 0 else s

/-- A line that says that something is done. -/
def success (look : Appearance) (message : String) : String :=
  if look.hasSigns then Sign.text look .done ++ " " ++ look.escaped [32] message else message

/-- A line to be aware of, when nothing failed. -/
def notice (look : Appearance) (message : String) : String :=
  let label := "[notice]"
  (if look.hasSigns then look.escaped [33, 1] label else label) ++ " " ++ message

end Appearance

end CommandLine

end Cookbook
