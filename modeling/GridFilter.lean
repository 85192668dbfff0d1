import GridFilter.Main
import GridFilter.Proofs.Conversion.Binding
import GridFilter.Proofs.Conversion.Finality
import GridFilter.Proofs.Conversion.Leaves
import GridFilter.Proofs.Conversion.Rows
import GridFilter.Proofs.DataMap.Shapes
import GridFilter.Proofs.Dialect.Inline
import GridFilter.Proofs.Node.RoundTrip
import GridFilter.Proofs.Parser.Height
import GridFilter.Proofs.Parser.Limit
import GridFilter.Proofs.Parser.Nesting
import GridFilter.Proofs.Parser.Refusal
import GridFilter.Proofs.Settings.Saved
import GridFilter.Proofs.Token.Tiling
import GridFilter.Proofs.WholeQuery.Literals
import GridFilter.Proofs.Conversion.Exchange
import GridFilter.Proofs.DataMap.Dotted
import GridFilter.Proofs.Parser.Names
import GridFilter.Proofs.Parser.Positions
import GridFilter.Proofs.Conversion.Negation
import GridFilter.Proofs.Parser.Numbers
import GridFilter.Proofs.Token.Quoted
import GridFilter.Proofs.Value.Exact
import GridFilter.Proofs.Conversion.Origins
import GridFilter.Proofs.Conversion.Stored
import GridFilter.Proofs.Grid.Json
import GridFilter.Proofs.Token.Failures
import GridFilter.Proofs.Token.Respelled
import GridFilter.Proofs.Token.Concatenation
import GridFilter.Proofs.Dialect.Strings
import GridFilter.Proofs.Value.Json
import GridFilter.Proofs.Dialect.Placeholders
import GridFilter.Proofs.Dialect.Dealt
import GridFilter.Proofs.Value.Opposites
