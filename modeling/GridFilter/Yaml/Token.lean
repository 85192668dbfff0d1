/-! The tokens of YAML. Besides the marks of a text there are tokens for what its indentation says: where the blocks of
    items and of entries start and end. -/

namespace GridFilter.Yaml

/-- How a scalar is written: without quotes, in quotes, or as a block of lines that are kept or folded. -/
inductive Style where
  | plain
  | quoted
  | literal
  | folded
deriving DecidableEq, Repr

/-- A token. A tag is a handle, which stands for the beginning of a name, and the rest of the name. -/
inductive Token where
  | version (major minor : Nat)
  | handle (handle : String) (meaning : String)
  | documentStart
  | documentEnd
  | itemsStart
  | entriesStart
  | blockEnd
  | listOpen
  | listClose
  | mapOpen
  | mapClose
  | item
  | comma
  | key
  | value
  | alias (name : String)
  | anchor (name : String)
  | tag (handle : String) (suffix : String)
  | scalar (style : Style) (text : String)
deriving DecidableEq, Repr

end GridFilter.Yaml
