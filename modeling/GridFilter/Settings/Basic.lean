import GridFilter.Files
import GridFilter.Filter

/-! The settings of the program. They are put together from layers, each of which spells some of the keys; of two
    layers that spell a key the later one counts. -/

namespace GridFilter

/-- The settings of the program. -/
structure Settings where
  shortCircuit : Bool := true
  expandIn : Bool := true
  missingAttribute : MissingAttribute := .firstProperty
  maxDepth : Nat := ParsedFilter.defaultMaxDepth
  pretty : Bool := true
  verbosity : Nat := 0
deriving DecidableEq, Repr, Inhabited

namespace Settings

/-! ### Layers -/

/-- The keys that one source of settings spells, with their values. -/
structure Layer where
  shortCircuit : Option Bool := none
  expandIn : Option Bool := none
  missingAttribute : Option MissingAttribute := none
  maxDepth : Option Nat := none
  pretty : Option Bool := none
  verbosity : Option Nat := none
deriving DecidableEq, Repr, Inhabited

/-- Settings in which the keys of a layer have its values. -/
def under (settings : Settings) (layer : Layer) : Settings where
  shortCircuit := layer.shortCircuit.getD settings.shortCircuit
  expandIn := layer.expandIn.getD settings.expandIn
  missingAttribute := layer.missingAttribute.getD settings.missingAttribute
  maxDepth := layer.maxDepth.getD settings.maxDepth
  pretty := layer.pretty.getD settings.pretty
  verbosity := layer.verbosity.getD settings.verbosity

/-- The defaults under layers, the first one lowest. -/
def ofLayers (layers : List Layer) : Settings := layers.foldl under {}

/-! ### Faults -/

/-- The formats of a settings file. -/
inductive FileFormat where
  | toml
  | yaml
deriving DecidableEq, Repr

/-- The name of a format. -/
def FileFormat.name : FileFormat → String
  | .toml => "TOML"
  | .yaml => "YAML"

/-- The format that an extension stands for. -/
def FileFormat.ofExtension? (extension : String) : Option FileFormat :=
  if extension = "toml" then some .toml
  else if extension = "yaml" ∨ extension = "yml" then some .yaml
  else none

/-- Why settings are refused. -/
inductive Fault where
  | unreadable (path : String) (fault : FileFault)
  | unsupportedFormat
  | invalidFile (format : FileFormat)
  | unserializable
  | unwritable (fault : FileFault)
  | invalidVariable (name : String) (value : String)
  | zeroArgument
  | zeroDepth
deriving DecidableEq, Repr

/-- The message about settings that are refused. -/
def Fault.message (fault : Fault) : String :=
  "Configuration error: " ++ match fault with
    | .unreadable path fault => "Failed to read config file " ++ path ++ ": " ++ fault.message
    | .unsupportedFormat => "Unsupported config file format"
    | .invalidFile format => "Invalid " ++ format.name ++ " config"
    | .unserializable => "Failed to serialize config"
    | .unwritable fault => "Failed to write config file: " ++ fault.message
    | .invalidVariable name value => name ++ ": " ++ MissingAttribute.invalid value
    | .zeroArgument => "--max-depth must be greater than 0"
    | .zeroDepth => "Max depth must be greater than 0"

/-- Settings whose depth limit lets a filter through. -/
def validate (settings : Settings) : Except Fault Settings :=
  if settings.maxDepth = 0 then .error .zeroDepth else .ok settings

/-! ### Use -/

/-- How the settings have filters read and converted. -/
def filterOptions (settings : Settings) : FilterOptions where
  maxDepth := some settings.maxDepth
  convert :=
    { shortCircuit := settings.shortCircuit, expandIn := settings.expandIn,
      missingAttribute := settings.missingAttribute }

end Settings

end GridFilter
