import GridFilter.Conversion
import GridFilter.Dialect
import GridFilter.Node.Parser

/-! Filters read once and converted many times. -/

namespace GridFilter

/-- How filters are read and converted. -/
structure FilterOptions where
  /-- The greatest depth, where one is asked for. -/
  maxDepth : Option Nat := none
  convert : ConvertOptions := {}
deriving DecidableEq, Repr, Inhabited

/-- A filter that has been read: its text in the inline dialect, the names it needs values for, its tree unless there
    is nothing to convert, and how it is converted. -/
structure CompiledFilter where
  normalized : String
  names : List String
  ast : Option Node
  options : ConvertOptions

namespace CompiledFilter

/-- Reads a filter text. A blank text and a whole query give a filter without a tree. -/
def ofText (text : String) (options : FilterOptions) : Except ParseError CompiledFilter :=
  if Text.isBlankText text then .ok ⟨"", [], none, options.convert⟩
  else
    let canonical := Dialect.canonicalize text
    let maxDepth := options.maxDepth.getD ParsedFilter.defaultMaxDepth
    match ParsedFilter.ofText maxDepth canonical.names canonical.normalized with
    | .error e => .error e
    | .ok none => .ok ⟨canonical.normalized, canonical.names, none, options.convert⟩
    | .ok (some parsed) => .ok ⟨canonical.normalized, parsed.names, some parsed.ast, options.convert⟩

/-- Converts a filter against a source of values; there is no result where there is nothing to filter by. -/
def convertWith (filter : CompiledFilter) (resolve : Resolver) : Option Grid :=
  filter.ast.bind fun node => (node.convertWith filter.options resolve).root?

/-- Converts a filter against a data map. -/
def convert (filter : CompiledFilter) (data : DataMap) : Option Grid :=
  filter.convertWith (data.resolve filter.options.missingAttribute)

end CompiledFilter

end GridFilter
