import GridFilter.Operator
import GridFilter.Token.Lexer

/-! Why a filter text is refused. -/

namespace GridFilter

/-- The reasons for which a filter is refused; positions are byte offsets in its text. -/
inductive ParseError where
  /-- Some part of the text is no token. -/
  | lex (e : LexError)
  /-- There is no token at all. -/
  | emptyInput
  /-- The tokens end where a value is due. -/
  | unexpectedEnd
  /-- A token stands where it has no use. -/
  | unexpectedToken (found : String) (position : Nat)
  /-- The parenthesis at this position is not closed. -/
  | missingParen (position : Nat)
  /-- The lower end of a range is not followed by `AND`. -/
  | missingBetweenAnd (position : Nat)
  /-- A list or the arguments of a function do not start with a parenthesis. -/
  | expectedOpenParen (after : String) (position : Nat)
  /-- Two fields are compared with each other. -/
  | invalidComparison (left : String) (operator : Comparison) (right : String)
  /-- A function other than the known one is called. -/
  | unsupportedFunction (name : String) (position : Nat)
  /-- A function is called with fewer arguments than it needs. -/
  | tooFewArguments (name : String) (expected found : Nat)
  /-- The filter nests deeper than the limit. -/
  | tooDeep (maxDepth : Nat)
deriving DecidableEq, Repr

namespace ParseError

/-- The message about a refused filter. -/
def message : ParseError → String
  | .lex e => e.message
  | .emptyInput => "Empty input"
  | .unexpectedEnd => "Unexpected end of input"
  | .unexpectedToken found position => "Unexpected token '" ++ found ++ "' at position " ++ toString position
  | .missingParen position => "Missing closing parenthesis for '(' at position " ++ toString position
  | .missingBetweenAnd position => "Expected AND after BETWEEN at position " ++ toString position
  | .expectedOpenParen after position => "Expected ( after " ++ after ++ " at position " ++ toString position
  | .invalidComparison left operator right => "Invalid comparison: " ++ left ++ " " ++ operator.symbol ++ " " ++ right
  | .unsupportedFunction name position => "Unsupported function '" ++ name ++ "' at position " ++ toString position
  | .tooFewArguments name expected found =>
    name ++ " expects at least " ++ toString expected ++ " arguments, found " ++ toString found
  | .tooDeep maxDepth => "Expression nesting exceeds the maximum depth of " ++ toString maxDepth

/-- The position that a reason names, if it names one. -/
def position? : ParseError → Option Nat
  | .lex e => some e.position
  | .unexpectedToken _ position | .missingParen position | .missingBetweenAnd position
  | .expectedOpenParen _ position | .unsupportedFunction _ position => some position
  | .emptyInput | .unexpectedEnd | .invalidComparison .. | .tooFewArguments .. | .tooDeep _ => none

end ParseError

end GridFilter
