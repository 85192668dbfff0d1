/-! The operators of a filter: the two connectives and the eleven comparisons, with the spelling that a token has,
    and the lower-case label that JSON shows. -/

namespace GridFilter

/-! ### Connectives -/

/-- What joins two conditions. -/
inductive Connective where
  | and
  | or
deriving DecidableEq, Repr, Inhabited

namespace Connective

/-- The spelling in a filter text. -/
def symbol : Connective → String
  | .and => "AND"
  | .or => "OR"

/-- The label in JSON. -/
def label : Connective → String
  | .and => "and"
  | .or => "or"

/-- The connective that a token spells. -/
def ofSymbol? (text : String) : Option Connective :=
  if text = "AND" then some .and else if text = "OR" then some .or else none

/-- The connective with a label. -/
def ofLabel? (text : String) : Option Connective :=
  if text = "and" then some .and else if text = "or" then some .or else none

/-- How tightly a connective binds; `AND` binds tighter than `OR`. -/
def precedence : Connective → Nat
  | .or => 1
  | .and => 2

/-- The truth value that decides a group on its own: false under `AND`, true under `OR`. -/
def absorbing : Connective → Bool
  | .and => false
  | .or => true

/-- The truth value that changes nothing in a group: true under `AND`, false under `OR`. -/
def identity (connective : Connective) : Bool := !connective.absorbing

end Connective

/-! ### Comparisons -/

/-- How a field is compared with a value. -/
inductive Comparison where
  | eq
  | ne
  | gt
  | ge
  | lt
  | le
  | isIn
  | notIn
  | between
  | like
  | notLike
deriving DecidableEq, Repr, Inhabited

namespace Comparison

/-- Every comparison. -/
def all : List Comparison := [.eq, .ne, .gt, .ge, .lt, .le, .isIn, .notIn, .between, .like, .notLike]

/-- The spelling in a filter text. -/
def symbol : Comparison → String
  | .eq => "="
  | .ne => "!="
  | .gt => ">"
  | .ge => ">="
  | .lt => "<"
  | .le => "<="
  | .isIn => "IN"
  | .notIn => "NOT IN"
  | .between => "BETWEEN"
  | .like => "LIKE"
  | .notLike => "NOT LIKE"

/-- The label in JSON. -/
def label : Comparison → String
  | .eq => "="
  | .ne => "!="
  | .gt => ">"
  | .ge => ">="
  | .lt => "<"
  | .le => "<="
  | .isIn => "in"
  | .notIn => "not in"
  | .between => "between"
  | .like => "like"
  | .notLike => "not like"

/-- The comparison that a token spells. -/
def ofSymbol? (text : String) : Option Comparison := all.find? fun c => c.symbol = text

/-- The comparison with a label. -/
def ofLabel? (text : String) : Option Comparison := all.find? fun c => c.label = text

/-- How tightly a comparison binds: tighter than both connectives. -/
def precedence : Nat := 3

/-- The comparison that says the same with its sides exchanged. -/
def inverse : Comparison → Comparison
  | .gt => .lt
  | .lt => .gt
  | .ge => .le
  | .le => .ge
  | other => other

/-- One of the six comparisons that hold between two single values. -/
def isRelational : Comparison → Bool
  | .eq | .ne | .gt | .ge | .lt | .le => true
  | .isIn | .notIn | .between | .like | .notLike => false

end Comparison

end GridFilter
