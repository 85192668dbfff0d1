import GridFilter.Settings.Basic

/-! What a command line asks for. -/

namespace GridFilter.Cli

/-- Where the text of a filter comes from: an argument, a file, or standard input where neither is given. -/
structure FilterSource where
  filter : Option String := none
  file : Option String := none
deriving DecidableEq, Repr

/-- The shells that completions can be made for. -/
inductive Shell where
  | bash
  | elvish
  | fish
  | powershell
  | zsh
deriving DecidableEq, Repr

namespace Shell

/-- Every shell. -/
def all : List Shell := [.bash, .elvish, .fish, .powershell, .zsh]

/-- The name of a shell. -/
def name : Shell → String
  | .bash => "bash"
  | .elvish => "elvish"
  | .fish => "fish"
  | .powershell => "powershell"
  | .zsh => "zsh"

/-- The shell with a name. -/
def ofName? (text : String) : Option Shell := all.find? fun shell => shell.name = text

end Shell

/-- The commands of the program. -/
inductive Command where
  /-- Converts a filter against a data map in a file or in an argument. -/
  | convert (source : FilterSource) (data : Option String) (dataText : Option String)
  /-- Shows the tree of a filter and the names it needs values for. -/
  | parse (source : FilterSource)
  /-- Shows the tokens of a filter. -/
  | tokens (source : FilterSource)
  /-- Shows a filter in the inline dialect. -/
  | canonicalize (source : FilterSource)
  | completions (shell : Shell)
  | showSettings
  | initSettings (path : String) (force : Bool)
  | checkSettings (path : String)
deriving DecidableEq, Repr

/-- The settings that a command line overrides. -/
structure Overrides where
  shortCircuit : Option Bool := none
  expandIn : Option Bool := none
  missingAttribute : Option MissingAttribute := none
  maxDepth : Option Nat := none
  compact : Bool := false
  verbose : Nat := 0
  settingsFile : Option String := none
deriving DecidableEq, Repr

/-- A command with the settings it overrides. -/
structure Invocation where
  command : Command
  overrides : Overrides
deriving DecidableEq, Repr

/-- Why a command line runs no command: it is not understood, or it asks for help or the version. -/
inductive Refusal where
  | usage
  | display
deriving DecidableEq, Repr

/-- The layer that a command line gives. The depth limit has to let a filter through. -/
def Overrides.layer (overrides : Overrides) : Except Settings.Fault Settings.Layer :=
  if overrides.maxDepth = some 0 then .error .zeroArgument
  else .ok {
    shortCircuit := overrides.shortCircuit
    expandIn := overrides.expandIn
    missingAttribute := overrides.missingAttribute
    maxDepth := overrides.maxDepth
    pretty := if overrides.compact then some false else none
    verbosity := if overrides.verbose = 0 then none else some overrides.verbose }

end GridFilter.Cli
