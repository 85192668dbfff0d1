import GridFilter.Yaml.Node
import GridFilter.Yaml.Token.Lexer

/-! Reading the contents of a YAML document from its tokens. A text is one document at most. -/

namespace GridFilter.Yaml

/-- Tokens being read: those that are left, and the names of anchors with the numbers they stand for. -/
structure Progress where
  tokens : List Token
  anchors : List (String × Nat) := []

/-- Takes a value off the front of tokens, or refuses it. -/
abbrev TokenReader := StateT Progress Option

namespace TokenReader

/-! ### Single tokens -/

/-- The next token satisfies `p`. -/
def sees (p : Token → Bool) : TokenReader Bool := do return (← get).tokens.head?.any p

/-- Past the next token. -/
def skip : TokenReader Unit := modify fun progress => { progress with tokens := progress.tokens.tail }

/-- Past a token, which has to be there. -/
def expect (token : Token) : TokenReader Unit := do
  if ← sees (· == token) then skip else failure

/-- Past a token if it is there. -/
def accept (token : Token) : TokenReader Bool := do
  let found ← sees (· == token)
  if found then skip
  return found

/-! ### Properties -/

/-- The number that an alias of a name refers to. -/
def anchorOf (name : String) : TokenReader Nat := do (← get).anchors.lookup name

/-- A number for a node with a name: the count of the names known so far. -/
def addAnchor (name : String) : TokenReader Nat := do
  let { tokens, anchors } ← get
  let others := anchors.filter (·.1 ≠ name)
  set ({ tokens, anchors := (name, anchors.length) :: others } : Progress)
  return anchors.length

/-- The anchor in front of a node, if there is one. -/
def anchor? : TokenReader (Option Nat) := do
  match (← get).tokens with
  | .anchor name :: _ => do
    skip
    return some (← addAnchor name)
  | _ => return none

/-- The tag in front of a node, if there is one. Its handle has to be known. -/
def tag? (handles : List (String × String)) : TokenReader (Option String) := do
  match (← get).tokens with
  | .tag "" suffix :: _ => do
    skip
    return some suffix
  | .tag handle suffix :: _ => do
    skip
    return some ((← handles.lookup handle) ++ suffix)
  | _ => return none

/-- An anchor and a tag in either order. -/
def properties (handles : List (String × String)) : TokenReader Properties := do
  match ← anchor? with
  | some anchor => return { anchor := some anchor, tag := ← tag? handles }
  | none =>
    let tag ← tag? handles
    return { anchor := ← anchor?, tag }

/-! ### Lists and maps -/

/-- The places in which a node may stand: where blocks may start, behind the mark of a key or a value as well, or in
    brackets. -/
inductive Place where
  | block
  | entry
  | flow
deriving DecidableEq, Repr

/-- A node, of which nothing may be written in front of some tokens. -/
def nodeUnless (node : Place → TokenReader Node) (place : Place) (stops : List Token) : TokenReader Node := do
  if ← sees (stops.contains ·) then return .missing else node place

/-- Items with marks in front of them, at most `bound`. -/
def items (node : Place → TokenReader Node) (stops : List Token) : (bound : Nat) → TokenReader (List Node)
  | 0 => failure
  | bound + 1 => do
    if ← accept .item then
      let first ← nodeUnless node .block stops
      return first :: (← items node stops bound)
    else return []

/-- The entries of a block, at most `bound`. Each starts with a key; its value may be missing. -/
def blockEntries (node : Place → TokenReader Node) : (bound : Nat) → TokenReader (List (Node × Node))
  | 0 => failure
  | bound + 1 => do
    if ← accept .key then
      let key ← nodeUnless node .entry [.key, .value, .blockEnd]
      let value ← if ← accept .value then nodeUnless node .entry [.key, .value, .blockEnd] else pure .missing
      return (key, value) :: (← blockEntries node bound)
    else return []

/-- The value of an entry in brackets, which may be missing. -/
def flowValue (node : Place → TokenReader Node) (close : Token) : TokenReader Node := do
  if ← accept .value then nodeUnless node .flow [.comma, close] else return .missing

/-- An entry among the items of a list, behind the mark of its key. Where nothing is written for the key, the token
    behind the mark is passed over. -/
def pair (node : Place → TokenReader Node) : TokenReader Node := do
  let key ← if ← sees ([.value, .comma, .listClose].contains ·) then do
      skip
      pure .missing
    else node .flow
  return .map {} [(key, ← flowValue node .listClose)]

/-- An item of a list in brackets: a node, or an entry with a mark in front of its key. -/
def flowItem (node : Place → TokenReader Node) : TokenReader Node := do
  if ← accept .key then pair node else node .flow

/-- An entry of a map in brackets. A value stands only behind a key with a mark or a colon. -/
def flowEntry (node : Place → TokenReader Node) : TokenReader (Node × Node) := do
  if ← accept .key then
    let key ← nodeUnless node .flow [.value, .comma, .mapClose]
    return (key, ← flowValue node .mapClose)
  else return (← node .flow, .missing)

/-- Parts with commas between them up to a closing bracket, with an optional comma behind the last. -/
def separated {α : Type} (part : TokenReader α) (close : Token) : (bound : Nat) → TokenReader (List α)
  | 0 => failure
  | bound + 1 => do
    if ← accept close then return []
    else
      let first ← part
      if ← accept .comma then return first :: (← separated part close bound)
      else
        expect close
        return [first]

/-! ### Nodes -/

/-- A scalar; the tag that is a single mark does not count. -/
def scalar (properties : Properties) (style : Style) (text : String) : Node :=
  .scalar (if properties.tag = some "!" then { properties with tag := none } else properties) style text

/-- A node of which nothing is written but properties. -/
def untold (properties : Properties) : TokenReader Node :=
  if properties = {} then failure else return .scalar properties .plain ""

/-- What stands behind the properties of a node. -/
def content (node : Place → TokenReader Node) (place : Place) (properties : Properties) : TokenReader Node := do
  let tokens := (← get).tokens
  let bound := tokens.length
  match tokens with
  | .scalar style text :: _ => do
    skip
    return scalar properties style text
  | .listOpen :: _ => do
    skip
    return .list properties (← separated (flowItem node) .listClose bound)
  | .mapOpen :: _ => do
    skip
    return .map properties (← separated (flowEntry node) .mapClose bound)
  | .item :: _ =>
    if place = .entry then
      return .list properties (← items node [.item, .key, .value, .blockEnd] (bound + 1))
    else untold properties
  | .itemsStart :: _ =>
    if place = .flow then untold properties
    else do
      skip
      let nodes ← items node [.item, .blockEnd] bound
      expect .blockEnd
      return .list properties nodes
  | .entriesStart :: _ =>
    if place = .flow then untold properties
    else do
      skip
      let entries ← blockEntries node bound
      expect .blockEnd
      return .map properties entries
  | _ => untold properties

/-- A node with at most so many levels. -/
def node (handles : List (String × String)) : (levels : Nat) → Place → TokenReader Node
  | 0, _ => failure
  | levels + 1, place => do
    match (← get).tokens with
    | .alias name :: _ => do
      skip
      return .alias (← anchorOf name)
    | _ => do
      let properties ← properties handles
      content (node handles levels) place properties

/-! ### Documents -/

/-- What the handles of tags stand for where no directive says otherwise. -/
def usualHandles : List (String × String) := [("!", "!"), ("!!", "tag:yaml.org,2002:")]

/-- The directives in front of a document, at most `bound` of them: the version of the language once, and each handle
    once. Gives the handles. -/
def directives : (bound : Nat) → (versioned : Bool) → List (String × String) → TokenReader (List (String × String))
  | 0, _, handles => return handles
  | bound + 1, versioned, handles => do
    match (← get).tokens with
    | .version major minor :: _ =>
      if versioned ∨ major ≠ 1 ∨ (minor ≠ 1 ∧ minor ≠ 2) then failure
      else do
        skip
        directives bound true handles
    | .handle handle meaning :: _ =>
      if (handles.lookup handle).isSome then failure
      else do
        skip
        directives bound versioned (handles ++ [(handle, meaning)])
    | _ => return handles

/-- The root of a document, of which nothing may be written behind its mark. -/
def root (handles : List (String × String)) : TokenReader Node := do
  let tokens := (← get).tokens
  match tokens with
  | [] | .documentEnd :: _ | .documentStart :: _ | .version .. :: _ | .handle .. :: _ => return .missing
  | _ => node (handles ++ usualHandles) tokens.length .block

/-- The document that starts a text: with a mark and directives before it, or with its root. -/
def document : TokenReader Node := do
  let tokens := (← get).tokens
  match tokens with
  | .version .. :: _ | .handle .. :: _ | .documentStart :: _ => do
    let handles ← directives tokens.length false []
    expect .documentStart
    root handles
  | _ => node usualHandles tokens.length .block

end TokenReader

/-- The root of the document that a text spells: nothing where the text holds none, refused where it holds more. -/
def parse? (text : String) : Option (Option Node) := do
  match ← tokens? text with
  | [] => return none
  | tokens => do
    let (node, progress) ← TokenReader.document.run { tokens }
    if progress.tokens.all (· == .documentEnd) then return some node else none

end GridFilter.Yaml
