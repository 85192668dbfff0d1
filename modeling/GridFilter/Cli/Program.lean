import GridFilter.BuildInfo
import GridFilter.Cli.CommandLine
import GridFilter.Node.Spelling
import GridFilter.Outcome
import GridFilter.Settings.Sources

/-! A run of the program on any host: the settings are put together, and then the command does its work. A run ends
    with what it printed, or with the reason why it failed. -/

namespace GridFilter

/-! ### Reports -/

/-- A token as JSON. -/
def Token.toJson (token : Token) : Json := .object
  [("kind", .string token.kind.name), ("text", .string token.text), ("position", .integer token.position)]

/-- A filter in the inline dialect as JSON. -/
def Dialect.Canonical.toJson (canonical : Dialect.Canonical) : Json := .object
  [("normalized", .string canonical.normalized), ("variables", .ofStrings canonical.names)]

/-- A parsed filter as JSON. -/
def ParsedFilter.toJson (parsed : ParsedFilter) : Json := .object
  [("ast", parsed.ast.toJson), ("variables", .ofStrings parsed.names)]

namespace Cli
open Settings (Environment)

variable {m : Type → Type} [Monad m]

/-! ### Failures -/

/-- Why a run failed. -/
inductive Failure where
  | settings (fault : Settings.Fault)
  | filterFile (path : String) (fault : FileFault)
  | filterInput (fault : FileFault)
  | dataFile (path : String) (e : LoadError)
  | dataText (e : LoadError)
  | compile (e : ParseError)
  | parse (e : ParseError)
  | lex (e : LexError)
  | unserializable
  | settingsFilePresent (path : String)
deriving DecidableEq, Repr

/-- The advice on a filter file that is not there. -/
def missingFilterAdvice (path : String) : String :=
  "\n\nFilter file '" ++ path ++ "' not found.\n\nTry one of:\n  - Check the file path is correct\n" ++
    "  - Pass the filter directly: dxq convert 'A = \x7bX.Y\x7d'"

/-- The causes of a failure. -/
def Failure.causes : Failure → List String
  | .settings fault => [fault.message]
  | .filterFile path fault =>
    ["Failed to read filter file " ++ path ++ ": " ++ fault.message ++
      if fault = .notFound then missingFilterAdvice path else ""]
  | .filterInput fault => ["Failed to read filter from stdin", fault.message]
  | .dataFile path e => ("Failed to load data map from " ++ path) :: e.causes
  | .dataText e => "Invalid --data-json" :: e.causes
  | .compile e => compileCauses e
  | .parse e => [e.message]
  | .lex e => [e.message]
  | .unserializable => ["Failed to serialize config"]
  | .settingsFilePresent path => ["Config file " ++ path ++ " already exists (use --force to overwrite)"]

/-- The message about a failure. -/
def Failure.message (failure : Failure) : String := causeText failure.causes

/-- A step of a run. -/
abbrev Run (m : Type → Type) := ExceptT Failure m

/-- A step that can fail for a reason of its own. -/
def attempt {ε α : Type} (reason : ε → Failure) (step : m (Except ε α)) : Run m α :=
  ExceptT.mk do return (← step).mapError reason

/-- A result that can be a failure. -/
def given {ε α : Type} (reason : ε → Failure) (result : Except ε α) : Run m α :=
  ExceptT.mk (pure (result.mapError reason))

/-! ### Settings -/

/-- The layer of the file that the command line names. -/
def namedLayer (host : Host m) (formats : Settings.Formats) : Option String → Run m Settings.Layer
  | none => pure {}
  | some path => attempt .settings (Settings.readLayer host path formats)

/-- The settings of a run: the defaults under the settings file found, the environment, the file that the command
    line names, and the command line itself. -/
def gatherSettings (host : Host m) (environment : Environment) (overrides : Overrides)
    (formats : Settings.Formats := .builtIn) : Run m Settings := do
  let found ← attempt .settings (Settings.foundLayer host environment.directories formats)
  let fromEnvironment ← given .settings (Settings.environmentLayer environment.bindings)
  let named ← namedLayer host formats overrides.settingsFile
  let fromLine ← given .settings overrides.layer
  given .settings (Settings.ofLayers [found, fromEnvironment, named, fromLine]).validate

/-! ### Input -/

/-- The text of a filter. A text from a file or from standard input is trimmed. -/
def readFilter (host : Host m) (source : FilterSource) : Run m String :=
  match source.filter, source.file with
  | some text, _ => pure text
  | none, some path => return Text.trimmed (← attempt (.filterFile path) (host.read path))
  | none, none => return Text.trimmed (← attempt .filterInput host.input)

/-- The data map that a conversion is asked to use; the empty one where none is named. -/
def readData (host : Host m) (path text : Option String) : Run m DataMap :=
  match path, text with
  | some path, _ => do
    let text ← attempt (fun fault => .dataFile path (.unreadable fault)) (host.read path)
    given (.dataFile path) (DataMap.ofText text)
  | none, some text => given .dataText (DataMap.ofText text)
  | none, none => pure .empty

/-! ### Commands -/

/-- JSON as the settings have it printed. -/
def printed (settings : Settings) (json : Json) : String :=
  (if settings.pretty then json.pretty else json.compact) ++ "\n"

/-- The words that a command line can start with. -/
def completionScript (shell : Shell) : String :=
  let words := " ".intercalate rootSpec.commands
  match shell with
  | .bash => "complete -W \"" ++ words ++ "\" dxq\n"
  | .zsh => "compctl -k \"(" ++ words ++ ")\" dxq\n"
  | .fish => "complete -c dxq -f -a \"" ++ words ++ "\"\n"
  | .elvish => "set edit:completion:arg-completer[dxq] = \x7b|@words| put " ++ words ++ " \x7d\n"
  | .powershell => "Register-ArgumentCompleter -CommandName dxq -ScriptBlock \x7b '" ++ words ++ "'.Split(' ') \x7d\n"

/-- Makes a settings file with the defaults. -/
def initSettings (host : Host m) (path : String) (force : Bool) (formats : Settings.Formats) : Run m String := do
  if !force && (← liftM (host.isPresent path)) then throw (.settingsFilePresent path)
  attempt .settings (Settings.save host path {} formats)
  return "Created config file: " ++ path ++ "\n"

/-- Checks that a settings file gives settings that can be used. -/
def checkSettings (host : Host m) (path : String) (formats : Settings.Formats) : Run m String := do
  let settings ← attempt .settings (Settings.ofFile host path formats)
  let _ ← given .settings settings.validate
  return "Configuration file " ++ path ++ " is valid\n"

/-- What a command prints under some settings. -/
def perform (host : Host m) (settings : Settings) (formats : Settings.Formats) : Command → Run m String
  | .convert source path text => do
    let filter ← readFilter host source
    let data ← readData host path text
    let compiled ← given .compile (CompiledFilter.ofText filter settings.filterOptions)
    return printed settings (Grid.rootToJson (compiled.convert data))
  | .parse source => do
    let canonical := Dialect.canonicalize (← readFilter host source)
    let parsed ← given .parse (ParsedFilter.ofText settings.maxDepth canonical.names canonical.normalized)
    return printed settings ((parsed.map ParsedFilter.toJson).getD .null)
  | .tokens source => do
    let tokens ← given .lex (Token.ofText (← readFilter host source))
    return printed settings (.array (tokens.map Token.toJson))
  | .canonicalize source => do
    return printed settings (Dialect.canonicalize (← readFilter host source)).toJson
  | .completions shell => return completionScript shell
  | .showSettings =>
    match formats.write? .yaml settings with
    | some text => return text ++ "\n"
    | none => throw .unserializable
  | .initSettings path force => initSettings host path force formats
  | .checkSettings path => checkSettings host path formats

/-- What an invocation prints. -/
def run (host : Host m) (environment : Environment) (invocation : Invocation) (formats : Settings.Formats) :
    Run m String := do
  let settings ← gatherSettings host environment invocation.overrides formats
  perform host settings formats invocation.command

/-! ### The whole program -/

/-- The end of a run: the exit code, what was printed, and the message of an error. -/
structure Ending where
  code : Nat
  output : String := ""
  error : Option String := none
deriving DecidableEq, Repr

/-- What this build knows of itself. -/
def buildInfo : BuildInfo := { version := "0.2.0" }

/-- How the program is used. -/
def usageText : String :=
  "Usage: dxq [OPTIONS] <COMMAND>\n\nCommands: " ++ ", ".intercalate rootSpec.commands ++ "\n"

/-- An argument that asks for the version, wherever it stands. -/
def asksVersion (args : List String) : Bool := args.any fun arg => arg == "--version" || arg == "-V"

/-- Runs the program on its arguments, with the settings files of this library. -/
def program (host : Host m) (environment : Environment) (args : List String) : m Ending := do
  if asksVersion args then return { code := 0, output := buildInfo.text ++ "\n" }
  match Invocation.ofArguments args with
  | .error .display => return { code := 0, output := usageText }
  | .error .usage => return { code := 2, error := some usageText }
  | .ok invocation =>
    match ← (run host environment invocation .builtIn).run with
    | .ok output => return { code := 0, output }
    | .error failure => return { code := 1, error := some ("Error: " ++ failure.message) }

end Cli

end GridFilter
