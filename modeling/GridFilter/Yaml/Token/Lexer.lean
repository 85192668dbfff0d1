import GridFilter.Yaml.Token.Name

/-! Cutting a YAML text into tokens. Columns open and close blocks. A key is known only by the colon behind it, so the
    lexer remembers where one may have started, for the text outside of brackets and for each bracket that is open, and
    puts the token of a key in front of the tokens read since then. -/

namespace GridFilter.Yaml

/-! ### State -/

/-- A place where a key may have started: how many tokens were there before it, and where it is. A key is required
    where a block expects one. -/
structure KeyStart where
  required : Bool
  before : Nat
  index : Nat
  line : Nat
  column : Nat
deriving DecidableEq, Repr

/-- How many characters long a key without a mark of its own may be. -/
def KeyStart.limit : Nat := 1024

/-- The key may still end at a cursor: on its line, and not too far behind its start. -/
def KeyStart.reaches (key : KeyStart) (cursor : Cursor) : Bool :=
  key.line = cursor.line && cursor.index ≤ key.index + limit

/-- A text being cut into tokens: the tokens so far, the last one first; the columns of the open blocks, the innermost
    first; the place where a key may have started in the innermost open bracket, and those around it, one for each
    bracket; and whether a key may start at the cursor. -/
structure Lexer where
  cursor : Cursor
  tokens : List Token := []
  blocks : List Nat := []
  key : Option KeyStart := none
  outer : List (Option KeyStart) := []
  keyAllowed : Bool := true

namespace Lexer

/-- Some bracket is open. -/
def inFlow (lexer : Lexer) : Bool := !lexer.outer.isEmpty

/-- With one more token, which ends at a cursor. -/
def emit (lexer : Lexer) (token : Token) (cursor : Cursor) : Lexer :=
  { lexer with tokens := token :: lexer.tokens, cursor }

/-- With a token that is one character long. -/
def emitMark (lexer : Lexer) (token : Token) : Lexer := lexer.emit token lexer.cursor.next

/-- With one more token behind the first `before` ones. -/
def insert (lexer : Lexer) (before : Nat) (token : Token) : Lexer :=
  let count := lexer.tokens.length - before
  { lexer with tokens := lexer.tokens.take count ++ token :: lexer.tokens.drop count }

/-- Whether a key may start at the cursor from now on. -/
def allowKey (lexer : Lexer) (keyAllowed : Bool) : Lexer := { lexer with keyAllowed }

/-! ### Blocks -/

/-- Ends the blocks whose columns satisfy `p`, from the innermost one on. No block ends in brackets. -/
def closeWhile (lexer : Lexer) (p : Nat → Bool) : Lexer :=
  if lexer.inFlow then lexer
  else
    let closed := lexer.blocks.takeWhile p
    { lexer with tokens := closed.map (fun _ => .blockEnd) ++ lexer.tokens, blocks := lexer.blocks.dropWhile p }

/-- Ends the blocks right of a column. -/
def closeBlocks (lexer : Lexer) (column : Nat) : Lexer := lexer.closeWhile (column < ·)

/-- Ends all blocks. -/
def closeAll (lexer : Lexer) : Lexer := lexer.closeWhile fun _ => true

/-- No block starts at a column: brackets are open, or the innermost block starts there or right of it. -/
def isWithin (lexer : Lexer) (column : Nat) : Bool := lexer.inFlow || lexer.blocks.head?.any (column ≤ ·)

/-- Starts a block at a column, unless the column is within one or in brackets; its token goes behind the first
    `before` ones. -/
def openBlock (lexer : Lexer) (column before : Nat) (token : Token) : Lexer :=
  if lexer.isWithin column then lexer
  else { lexer.insert before token with blocks := column :: lexer.blocks }

/-- Starts a block at the cursor; a key has to be allowed there. -/
def openHere? (lexer : Lexer) (token : Token) : Option Lexer :=
  if lexer.inFlow then some lexer
  else if lexer.keyAllowed then some (lexer.openBlock lexer.cursor.column lexer.tokens.length token)
  else none

/-! ### Keys -/

/-- Lets go of the place where a key may have started; a required one is missed. -/
def dropKey? (lexer : Lexer) : Option Lexer :=
  if lexer.key.any (·.required) then none else some { lexer with key := none }

/-- Remembers that a key may start at the cursor. -/
def saveKey? (lexer : Lexer) : Option Lexer :=
  if !lexer.keyAllowed then some lexer
  else do
    let lexer ← lexer.dropKey?
    let cursor := lexer.cursor
    return { lexer with
      key := some {
        required := !lexer.inFlow && lexer.blocks.head? == some cursor.column
        before := lexer.tokens.length
        index := cursor.index
        line := cursor.line
        column := cursor.column } }

/-- The place where a key may have started, let go of if the key cannot end at a cursor any more; a required one is
    missed. -/
def reaching? (cursor : Cursor) : Option KeyStart → Option (Option KeyStart)
  | none => some none
  | some key => if key.reaches cursor then some (some key) else if key.required then none else some none

/-- Lets go of all places whose keys cannot end at the cursor any more. -/
def dropPassedKeys? (lexer : Lexer) : Option Lexer := do
  return { lexer with
    key := ← reaching? lexer.cursor lexer.key
    outer := ← lexer.outer.mapM (reaching? lexer.cursor) }

/-! ### Between tokens -/

/-- The characters that part tokens. A tab does so in brackets, and where no key may start. -/
def parts (lexer : Lexer) (c : Char) : Bool := c == ' ' || (c == '\t' && (lexer.inFlow || !lexer.keyAllowed))

/-- Past blanks, comments and the ends of lines, at most `bound` of them. A key may start on a new line outside of
    brackets. -/
def skipGaps : (bound : Nat) → Lexer → Lexer
  | 0, lexer => lexer
  | bound + 1, lexer =>
    let cursor := (lexer.cursor.skipOrderMark.skipWhile lexer.parts).skipComment
    match cursor.lineBreak? with
    | some (_, cursor) => skipGaps bound { lexer with cursor, keyAllowed := lexer.keyAllowed || !lexer.inFlow }
    | none => { lexer with cursor }

/-! ### Marks -/

/-- The mark of the start or of the end of a document, which ends all blocks. -/
def documentMark? (lexer : Lexer) (token : Token) : Option Lexer := do
  let lexer ← lexer.closeAll.dropKey?
  return (lexer.allowKey false).emit token (lexer.cursor.advance 3)

/-- A directive, which ends all blocks. -/
def directive? (lexer : Lexer) : Option Lexer := do
  let lexer ← lexer.closeAll.dropKey?
  let (token, cursor) ← directive lexer.cursor
  return (lexer.allowKey false).emit token cursor

/-- An opening bracket, with which a key may start and behind which one may. -/
def openBracket? (lexer : Lexer) (token : Token) : Option Lexer := do
  let lexer ← lexer.saveKey?
  return ({ lexer with key := none, outer := lexer.key :: lexer.outer }.allowKey true).emitMark token

/-- A closing bracket. -/
def closeBracket? (lexer : Lexer) (token : Token) : Option Lexer := do
  let lexer ← lexer.dropKey?
  let lexer := match lexer.outer with
    | key :: outer => { lexer with key, outer }
    | [] => lexer
  return (lexer.allowKey false).emitMark token

/-- A comma in brackets. -/
def comma? (lexer : Lexer) : Option Lexer := do
  return ((← lexer.dropKey?).allowKey true).emitMark .comma

/-- The mark of an item. -/
def item? (lexer : Lexer) : Option Lexer := do
  let lexer ← lexer.openHere? .itemsStart
  return ((← lexer.dropKey?).allowKey true).emitMark .item

/-- The mark of a key. -/
def key? (lexer : Lexer) : Option Lexer := do
  let lexer ← lexer.openHere? .entriesStart
  return ((← lexer.dropKey?).allowKey (!lexer.inFlow)).emitMark .key

/-- The mark of a value: behind a key that it reveals, or behind a key with a mark of its own. -/
def value? (lexer : Lexer) : Option Lexer :=
  match lexer.key with
  | some key =>
    let lexer := (lexer.insert key.before .key).openBlock key.column key.before .entriesStart
    some (({ lexer with key := none }.allowKey false).emitMark .value)
  | none => do
    let lexer ← lexer.openHere? .entriesStart
    return (lexer.allowKey (!lexer.inFlow)).emitMark .value

/-! ### Names and scalars -/

/-- A token with which a key may start, as `read` gives it. -/
def start? (lexer : Lexer) (read : CursorReader Token) : Option Lexer := do
  let lexer ← lexer.saveKey?
  let (token, cursor) ← read lexer.cursor
  return (lexer.allowKey false).emit token cursor

/-- A block of lines. -/
def block? (lexer : Lexer) (style : Style) : Option Lexer := do
  let lexer ← lexer.dropKey?
  let (text, cursor) ← block (style = .folded) lexer.blocks.head? lexer.cursor
  return (lexer.allowKey true).emit (.scalar style text) cursor

/-- A scalar in quotes. -/
def quoted? (lexer : Lexer) (quote : Char) : Option Lexer :=
  lexer.start? fun cursor => do
    let (text, cursor) ← quoted quote cursor
    return (.scalar .quoted text, cursor)

/-- A scalar without quotes. A key may start behind it if its line has ended. -/
def plain? (lexer : Lexer) : Option Lexer := do
  let lexer ← lexer.saveKey?
  let column := (lexer.blocks.head?.map (· + 1)).getD 0
  let ((text, afterBreak), cursor) ← plain lexer.inFlow column lexer.cursor
  return (lexer.allowKey afterBreak).emit (.scalar .plain text) cursor

/-- The characters that have a use of their own at the start of a token. -/
def isIndicator (c : Char) : Bool :=
  ['-', '?', ':', ',', '[', ']', '\x7b', '\x7d', '#', '&', '*', '!', '|', '>', '\'', '"', '%', '@', '\x60'].contains c

/-- A scalar without quotes starts with a character and the text behind it. -/
def startsPlain (inFlow : Bool) (c : Char) (rest : List Char) : Bool :=
  !(isBlank c || isIndicator c) || (c == '-' && !rest.head?.any isBlank) ||
    (!inFlow && (c == '?' || c == ':') && !isGap rest)

/-- The token that starts with a character and the text behind it. -/
def token? (lexer : Lexer) (c : Char) (rest : List Char) : Option Lexer :=
  if lexer.cursor.column = 0 ∧ c = '%' then lexer.directive?
  else if lexer.cursor.isDocumentMark then lexer.documentMark? (if c = '-' then .documentStart else .documentEnd)
  else if c = '[' then lexer.openBracket? .listOpen
  else if c = '\x7b' then lexer.openBracket? .mapOpen
  else if c = ']' then lexer.closeBracket? .listClose
  else if c = '\x7d' then lexer.closeBracket? .mapClose
  else if c = ',' then lexer.comma?
  else if c = '-' ∧ isGap rest then lexer.item?
  else if c = '?' ∧ (lexer.inFlow ∨ isGap rest) then lexer.key?
  else if c = ':' ∧ (lexer.inFlow ∨ isGap rest) then lexer.value?
  else if c = '*' then lexer.start? fun cursor => (anchorName cursor).map fun (name, cursor) => (.alias name, cursor)
  else if c = '&' then lexer.start? fun cursor => (anchorName cursor).map fun (name, cursor) => (.anchor name, cursor)
  else if c = '!' then lexer.start? (tag lexer.inFlow)
  else if c = '|' ∧ !lexer.inFlow then lexer.block? .literal
  else if c = '>' ∧ !lexer.inFlow then lexer.block? .folded
  else if c = '\'' ∨ c = '"' then lexer.quoted? c
  else if startsPlain lexer.inFlow c rest then lexer.plain?
  else none

/-! ### Whole texts -/

/-- At the next token or at the end of the text, the blocks right of it ended. -/
def advance? (lexer : Lexer) : Option Lexer := do
  let lexer ← (skipGaps (lexer.cursor.rest.length + 1) lexer).dropPassedKeys?
  return lexer.closeBlocks lexer.cursor.column

/-- The tokens of a text, at most `bound` of them read from it. -/
def tokensUpTo : (bound : Nat) → Lexer → Option (List Token)
  | 0, _ => none
  | bound + 1, lexer => do
    let lexer ← lexer.advance?
    match lexer.cursor.rest with
    | [] => return (← lexer.closeAll.dropKey?).tokens.reverse
    | c :: rest => tokensUpTo bound (← lexer.token? c rest)

end Lexer

/-- The tokens of a text. -/
def tokens? (text : String) : Option (List Token) :=
  let chars := text.toList
  if chars.all isPrintable then Lexer.tokensUpTo (chars.length + 1) { cursor := ⟨chars, 0, 0, 0⟩ } else none

end GridFilter.Yaml
