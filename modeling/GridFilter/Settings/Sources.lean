import GridFilter.Settings.Toml
import GridFilter.Settings.Yaml

/-! Where settings come from: a settings file in one of the usual places, the environment, and a file that the user
    names. The settings can be saved to a file that reads back to them. -/

namespace GridFilter.Settings

/-! ### Files -/

/-- The readers and the writers of settings files, a pair for each format. A reader gives the keys that a text spells,
    and a writer may refuse some settings. -/
structure Formats where
  read? : FileFormat → String → Option Layer
  write? : FileFormat → Settings → Option String

/-- The readers and writers of this library. Its writers refuse nothing. -/
def Formats.builtIn : Formats where
  read?
    | .toml => Toml.read?
    | .yaml => Yaml.read?
  write?
    | .toml, settings => some (Toml.write settings)
    | .yaml, settings => some (Yaml.write settings)

/-- The layer that the text of a file gives; the extension of its path tells the format. -/
def layerOfText (path : String) (text : String) (formats : Formats) : Except Fault Layer :=
  match FileFormat.ofExtension? ((Path.extension? path).getD "") with
  | none => .error .unsupportedFormat
  | some format =>
    match formats.read? format text with
    | some layer => .ok layer
    | none => .error (.invalidFile format)

/-- The text of a file for some settings. A path without an extension has the first format. -/
def textFor (path : String) (settings : Settings) (formats : Formats) : Except Fault String :=
  match FileFormat.ofExtension? ((Path.extension? path).getD "toml") with
  | none => .error .unsupportedFormat
  | some format =>
    match formats.write? format settings with
    | some text => .ok text
    | none => .error .unserializable

variable {m : Type → Type} [Monad m]

/-- The layer that a file gives. -/
def readLayer (host : Host m) (path : String) (formats : Formats) : m (Except Fault Layer) := do
  match ← host.read path with
  | .error fault => return .error (.unreadable path fault)
  | .ok text => return layerOfText path text formats

/-- The settings that a file gives over the defaults. -/
def ofFile (host : Host m) (path : String) (formats : Formats := .builtIn) : m (Except Fault Settings) := do
  return (← readLayer host path formats).map fun layer => ofLayers [layer]

/-- Saves settings to a file. -/
def save (host : Host m) (path : String) (settings : Settings) (formats : Formats := .builtIn) :
    m (Except Fault Unit) := do
  match textFor path settings formats with
  | .error fault => return .error fault
  | .ok text => return (← host.write path text).mapError .unwritable

/-- The names of settings files, in the order in which they are looked for. -/
def fileNames : List String := ["dxq.toml", ".dxq.toml", "dxq.yaml", ".dxq.yaml"]

/-- The layer of the first settings file in some directories; the empty layer where there is none. -/
def foundLayer (host : Host m) (directories : List String) (formats : Formats) : m (Except Fault Layer) := do
  let places := directories.flatMap fun directory => fileNames.map (Path.below directory)
  match ← host.firstFile? places with
  | none => return .ok {}
  | some path => readLayer host path formats

/-! ### The environment -/

/-- The surroundings of a run: the variables that are set, and the directories in which settings files may be. -/
structure Environment where
  bindings : Table String := []
  directories : List String := []

/-- The truth value of a variable: false is spelled by 0 and by any spelling of the word false. -/
def isSet (text : String) : Bool := text != "0" && !Text.sameLetters text "false"

/-- The variable for the policy. -/
def policyVariable : String := "DXQ_MISSING_ATTRIBUTE"

/-- The depth limit that a variable gives: a text that is no number of 64 bits gives the default. -/
def depthOf (text : String) : Nat :=
  match Decimal.nat? text.toList with
  | some n => if n < UInt64.size then n else ParsedFilter.defaultMaxDepth
  | none => ParsedFilter.defaultMaxDepth

/-- The verbosity that a variable gives: a number below 256, or nothing. -/
def verbosityOf? (text : String) : Option Nat := (Decimal.nat? text.toList).filter (· < 256)

/-- The layer that the environment gives. -/
def environmentLayer (bindings : Table String) : Except Fault Layer := do
  let policy ← match bindings.get? policyVariable with
    | none => .ok none
    | some text =>
      match MissingAttribute.read? text with
      | some policy => .ok (some policy)
      | none => .error (.invalidVariable policyVariable text)
  return {
    shortCircuit := (bindings.get? "DXQ_SHORT_CIRCUIT").map isSet
    expandIn := (bindings.get? "DXQ_EXPAND_IN").map isSet
    missingAttribute := policy
    maxDepth := (bindings.get? "DXQ_MAX_DEPTH").map depthOf
    verbosity := (bindings.get? "DXQ_VERBOSITY").bind verbosityOf? }

end GridFilter.Settings
