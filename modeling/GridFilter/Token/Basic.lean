/-! Tokens, the words of a filter text. -/

namespace GridFilter

/-- What a token is. -/
inductive TokenKind where
  | number
  | string
  | null
  | placeholder
  | operator
  | identifier
  | function
  | paren
  | comma
deriving DecidableEq, Repr, Inhabited

namespace TokenKind

/-- The name of a kind. -/
def name : TokenKind → String
  | .number => "number"
  | .string => "string"
  | .null => "null"
  | .placeholder => "placeholder"
  | .operator => "operator"
  | .identifier => "identifier"
  | .function => "function"
  | .paren => "paren"
  | .comma => "comma"

/-- Every kind. -/
def all : List TokenKind := [.number, .string, .null, .placeholder, .operator, .identifier, .function, .paren, .comma]

/-- The kind with a name. -/
def ofName? (name : String) : Option TokenKind := all.find? fun kind => kind.name = name

end TokenKind

/-- A token: what it is, its text in canonical spelling, and the byte offset at which it starts. The text of a string
    has its quotes undone, that of a placeholder is the name between its braces. -/
structure Token where
  kind : TokenKind
  text : String
  position : Nat
deriving DecidableEq, Repr, Inhabited

namespace Token

/-- The operator with this spelling. -/
def isOperator (token : Token) (symbol : String) : Bool := token.kind == .operator && token.text == symbol

/-- A parenthesis that starts with this character. -/
def isParen (token : Token) (paren : Char) : Bool := token.kind == .paren && token.text.toList.head? == some paren

/-- The byte offset just past the text of the token, taken as it is spelled here. -/
def stop (token : Token) : Nat := token.position + token.text.utf8ByteSize

end Token

end GridFilter
