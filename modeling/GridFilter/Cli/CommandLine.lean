import GridFilter.Cli.Level

/-! The command line of the program: what each command takes, and the invocation that a list of arguments spells. An
    option that every command takes counts where it is given last on the way down. -/

namespace GridFilter.Cli

/-! ### What texts are accepted -/

/-- Any text. -/
def anyText (_ : String) : Bool := true

/-- A path; the empty text is none. -/
def isPath (text : String) : Bool := text != ""

/-- The depth limit that a text spells: a number of 64 bits. -/
def depth? (text : String) : Option Nat := (Decimal.nat? text.toList).filter (· < UInt64.size)

/-- A depth limit. -/
def isDepth (text : String) : Bool := (depth? text).isSome

/-- A policy. -/
def isPolicy (text : String) : Bool := (MissingAttribute.read? text).isSome

/-- A shell. -/
def isShell (text : String) : Bool := (Shell.ofName? text).isSome

/-! ### What each command takes -/

/-- The options of every command. -/
def sharedOptions : List OptionSpec :=
  [{ name := "verbose", letter := some 'v', kind := .count }, { name := "config", kind := .value isPath }]

/-- The option for output on one line. -/
def compactOption : OptionSpec := { name := "compact", letter := some 'c' }

/-- The option for the depth limit. -/
def depthOption : OptionSpec := { name := "max-depth", kind := .value isDepth }

/-- The options of a command that takes a filter. -/
def filterOptions : List OptionSpec :=
  sharedOptions ++ [compactOption, { name := "filter-file", letter := some 'f', kind := .value isPath }]

/-- What the program takes. -/
def rootSpec : Spec where
  options := sharedOptions
  commands := ["convert", "parse", "tokens", "canonicalize", "completions", "config", "help"]

/-- What the command for the settings takes. -/
def settingsSpec : Spec where
  options := sharedOptions
  commands := ["show", "init", "check", "help"]

/-- What the conversion takes. -/
def convertSpec : Spec where
  options := filterOptions ++ [
    depthOption,
    { name := "data", letter := some 'd', kind := .value isPath },
    { name := "data-json", kind := .value anyText },
    { name := "no-short-circuit" },
    { name := "no-expand-in" },
    { name := "missing-attribute", kind := .value isPolicy }]
  operands := [anyText]

/-- What showing the tree takes. -/
def parseSpec : Spec where
  options := filterOptions ++ [depthOption]
  operands := [anyText]

/-- What showing the tokens or the inline dialect takes. -/
def textSpec : Spec where
  options := filterOptions
  operands := [anyText]

/-- What making completions takes. -/
def completionsSpec : Spec where
  options := sharedOptions
  operands := [isShell]

/-- What showing the settings takes. -/
def showSpec : Spec where
  options := sharedOptions

/-- What making a settings file takes. -/
def initSpec : Spec where
  options := sharedOptions ++ [{ name := "force", letter := some 'f' }]
  operands := [isPath]

/-- What checking a settings file takes. -/
def checkSpec : Spec where
  options := sharedOptions
  operands := [isPath]

/-- The settings file made where no path is given. -/
def defaultSettingsFile : String := "dxq.toml"

/-! ### Reading arguments -/

/-- The options of every command, as the levels above give them. -/
structure Shared where
  verbose : Nat := 0
  settingsFile : Option String := none

/-- The options of every command with those of one more level, which count if they are given there. -/
def Shared.below (shared : Shared) (given : Given) : Shared where
  verbose := if given.has "verbose" then min 255 (given.count "verbose") else shared.verbose
  settingsFile := (given.value? "config").orElse fun _ => shared.settingsFile

/-- The arguments of a command that has none below it. -/
def takeLast (spec : Spec) (args : List String) : Except Refusal Given := do
  let (given, _) ← takeLevel spec {} args
  return given

/-- The source of the filter that a command has; an argument and a file exclude each other. -/
def sourceOf (given : Given) : Except Refusal FilterSource :=
  match given.operands.head?, given.value? "filter-file" with
  | some _, some _ => .error .usage
  | filter, file => .ok { filter, file }

/-- The settings that a command overrides. -/
def overridesOf (shared : Shared) (given : Given) : Overrides :=
  let shared := shared.below given
  { shortCircuit := if given.has "no-short-circuit" then some false else none
    expandIn := if given.has "no-expand-in" then some false else none
    missingAttribute := (given.value? "missing-attribute").bind MissingAttribute.read?
    maxDepth := (given.value? "max-depth").bind depth?
    compact := given.has "compact"
    verbose := shared.verbose
    settingsFile := shared.settingsFile }

/-- The conversion. -/
def convertCommand (shared : Shared) (args : List String) : Except Refusal Invocation := do
  let given ← takeLast convertSpec args
  let source ← sourceOf given
  if given.has "data" && given.has "data-json" then .error .usage
  else return ⟨.convert source (given.value? "data") (given.value? "data-json"), overridesOf shared given⟩

/-- A command that takes a filter and shows something of it. -/
def filterCommand (spec : Spec) (command : FilterSource → Command) (shared : Shared) (args : List String) :
    Except Refusal Invocation := do
  let given ← takeLast spec args
  let source ← sourceOf given
  return ⟨command source, overridesOf shared given⟩

/-- Making completions. -/
def completionsCommand (shared : Shared) (args : List String) : Except Refusal Invocation := do
  let given ← takeLast completionsSpec args
  match given.operands.head?.bind Shell.ofName? with
  | some shell => return ⟨.completions shell, overridesOf shared given⟩
  | none => .error .usage

/-- Help on commands below the program or below the command for the settings. -/
def helpOn (commands : List String) : List String → Except Refusal Invocation
  | [] => .error .display
  | [name] => .error (if commands.contains name then .display else .usage)
  | name :: below :: rest =>
    let isKnown := commands.contains name && name = "config" && settingsSpec.commands.contains below && rest = []
    .error (if isKnown then .display else .usage)

/-- The commands for the settings. -/
def settingsCommand (shared : Shared) (args : List String) : Except Refusal Invocation := do
  let (given, rest) ← takeLevel settingsSpec {} args
  let shared := shared.below given
  match rest with
  | "show" :: args => do
    let given ← takeLast showSpec args
    return ⟨.showSettings, overridesOf shared given⟩
  | "init" :: args => do
    let given ← takeLast initSpec args
    let path := given.operands.head?.getD defaultSettingsFile
    return ⟨.initSettings path (given.has "force"), overridesOf shared given⟩
  | "check" :: args => do
    let given ← takeLast checkSpec args
    match given.operands.head? with
    | some path => return ⟨.checkSettings path, overridesOf shared given⟩
    | none => .error .usage
  | "help" :: names => helpOn settingsSpec.commands names
  | _ => .error .usage

/-- The invocation that arguments spell. -/
def Invocation.ofArguments (args : List String) : Except Refusal Invocation := do
  let (given, rest) ← takeLevel rootSpec {} args
  let shared := ({} : Shared).below given
  match rest with
  | "convert" :: args => convertCommand shared args
  | "parse" :: args => filterCommand parseSpec .parse shared args
  | "tokens" :: args => filterCommand textSpec .tokens shared args
  | "canonicalize" :: args => filterCommand textSpec .canonicalize shared args
  | "completions" :: args => completionsCommand shared args
  | "config" :: args => settingsCommand shared args
  | "help" :: names => helpOn rootSpec.commands names
  | _ => .error .usage

end GridFilter.Cli
