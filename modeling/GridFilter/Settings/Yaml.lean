import GridFilter.Settings.Document
import GridFilter.Yaml.Node.Parser

/-! Settings files in YAML. A tag that names a type asks for a value of that type; a tag of its own names a choice. -/

namespace GridFilter.Settings.Yaml

/-! ### Writing -/

/-- A value. -/
def scalarText : Scalar → String
  | .flag b => if b then "true" else "false"
  | .natural n => toString n
  | .word s => s

/-- A name and its block, one indented line for each key. -/
def blockText (name : String) (entries : Table Scalar) : String :=
  name ++ ":\n" ++ String.join (entries.map fun (key, value) => "  " ++ key ++ ": " ++ scalarText value ++ "\n")

/-- The settings as a file. -/
def write (settings : Settings) : String :=
  String.join ((sections settings).map fun (name, entries) => blockText name entries)

/-! ### Words -/

/-- The words for nothing. -/
def isNull (text : String) : Bool := ["null", "Null", "NULL", "~"].contains text

/-- The truth value that a word spells. -/
def bool? (text : String) : Option Bool :=
  if ["true", "True", "TRUE"].contains text then some true
  else if ["false", "False", "FALSE"].contains text then some false
  else none

/-- The number that decimal digits without a needless zero in front spell. -/
def decimal? (digits : List Char) : Option Nat :=
  if digits.all Char.isDigit && (digits.length = 1 || digits.head? ≠ some '0') then Radix.ofDigits? 10 digits else none

/-- The whole number that a word spells, with an optional plus and in any base. -/
def nat? (word : List Char) : Option Nat :=
  match (match word with | '+' :: rest => rest | _ => word) with
  | '0' :: 'x' :: digits => Radix.ofDigits? 16 digits
  | '0' :: 'o' :: digits => Radix.ofDigits? 8 digits
  | '0' :: 'b' :: digits => Radix.ofDigits? 2 digits
  | digits => decimal? digits

/-! ### Reading -/

/-- The tag of a type of the language. -/
def typeTag (name : String) : String := "tag:yaml.org,2002:" ++ name

/-- The text of a scalar. -/
def text? : Yaml.Node → Option String
  | .scalar _ _ text => some text
  | _ => none

/-- The text of a scalar that may be of a type: without quotes, or as lines that are kept under the tag of the type. -/
def typedText? (type : String) : Yaml.Node → Option String
  | .scalar properties style text =>
    if style = .plain ∨ (style = .literal ∧ properties.tag = some (typeTag type)) then some text else none
  | _ => none

/-- The entries of a section: of a map, or none where nothing is written. Names are scalars. -/
def entries? (resolve : Yaml.Node → Yaml.Node) : Yaml.Node → Option (Table Yaml.Node)
  | .map _ entries => entries.mapM fun (key, value) => do return (← text? (resolve key), resolve value)
  | .scalar _ .plain "" => some []
  | _ => none

/-- A scalar without quotes is absent if nothing or a word for nothing is written, unless a tag says that it is of some
    other type. A tag for nothing asks for such a word. -/
def isPresent? : Yaml.Node → Option Bool
  | .scalar { tag := none, .. } .plain text => some (text != "" && !isNull text)
  | .scalar { tag := some tag, .. } .plain text =>
    if tag ≠ typeTag "null" then some true else if isNull text then some false else none
  | _ => some true

/-- The choice that a scalar names: by a tag of its own, under which nothing stands, or by its text. -/
def choice? : Yaml.Node → Option String
  | .scalar { tag := some tag, .. } style text =>
    match tag.toList with
    | '!' :: name => if style = .plain ∧ (text = "" ∨ isNull text) then some (.ofList name) else none
    | _ => some text
  | .scalar { tag := none, .. } _ text => some text
  | _ => none

/-- How the nodes of a document are read as settings. -/
def format (root : Yaml.Node) : Format Yaml.Node where
  entries? _ := entries? root.resolve
  isPresent? := isPresent?
  flag? node := (typedText? "bool" node).bind bool?
  natural? node := (typedText? "int" node).bind fun text => nat? text.toList
  choice? := choice?
  isIgnorable _ := true

/-- The keys that a file spells; none where it holds no document. -/
def read? (text : String) : Option Layer := do
  match ← Yaml.parse? text with
  | none => return {}
  | some root => (format root).layer? root

end GridFilter.Settings.Yaml
