import GridFilter.DataMap.Load
import GridFilter.Files
import GridFilter.Filter

/-! Conversion of a filter text against data given as text, and why it can fail. A failure is told by its causes, the
    outermost first. -/

namespace GridFilter

/-! ### Causes -/

/-- Causes from the outermost on, with a colon between every two of them. -/
def causeText (causes : List String) : String := ": ".intercalate causes

/-- Why a data map could not be loaded. -/
inductive LoadError where
  | unreadable (fault : FileFault)
  | notJson
  | invalid (e : DataMap.InvalidData)
deriving DecidableEq, Repr

/-- The causes of a data map not being loaded. -/
def LoadError.causes : LoadError → List String
  | .unreadable fault => ["I/O error: " ++ fault.message, fault.message]
  | .notJson => ["JSON error"]
  | .invalid e => [e.message]

/-- The causes of a filter text being refused. -/
def compileCauses (e : ParseError) : List String := ["Parse error: " ++ e.message, e.message]

/-- The data map that a text spells. -/
def DataMap.ofText (text : String) : Except LoadError DataMap :=
  match Json.parse? text with
  | none => .error .notJson
  | some json => (DataMap.ofJson json).mapError .invalid

/-! ### Conversion in one step -/

/-- Why a filter text could not be converted against data given as text. -/
inductive ConvertError where
  | data (e : LoadError)
  | filter (text : String) (e : ParseError)
deriving DecidableEq, Repr

/-- The causes of a conversion failing. -/
def ConvertError.causes : ConvertError → List String
  | .data e => "Failed to load data map" :: e.causes
  | .filter text e => ("Failed to compile filter '" ++ text ++ "'") :: compileCauses e

/-- Converts a filter text against data given as text, the data being looked at first. -/
def convertText (filter data : String) (options : FilterOptions) : Except ConvertError Json := do
  let data ← (DataMap.ofText data).mapError .data
  let compiled ← (CompiledFilter.ofText filter options).mapError (.filter filter)
  return Grid.rootToJson (compiled.convert data)

end GridFilter
