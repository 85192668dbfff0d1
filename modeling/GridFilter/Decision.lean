import GridFilter.Operator
import GridFilter.Value.Basic

/-! Deciding a comparison between two values. The answer is three-valued: a comparison that the values alone do not
    settle is `none` and stays in the filter. -/

namespace GridFilter

namespace Comparison

/-- The answer between two numbers: only the four orderings have one. -/
def orders? (comparison : Comparison) (a b : Binary64) : Option Bool :=
  match comparison with
  | .gt => some (b.less a)
  | .ge => some (b.atMost a)
  | .lt => some (a.less b)
  | .le => some (a.atMost b)
  | _ => none

end Comparison

/-- One side of a comparison, as far as a decision looks at it. -/
inductive Reading where
  | null
  | number (x : Binary64)
deriving DecidableEq, Repr

namespace Value

/-- Null, or a number; nothing for a value that has no numeric reading. -/
def reading? (value : Value) : Option Reading :=
  if value.isNull then some .null else value.number?.map .number

/-- Decides a comparison. Both sides have to be null or have a numeric reading; equality is then equality of values,
    without conversion, and the orderings compare the numeric readings of two sides that are not null. -/
def decide? (left : Value) (comparison : Comparison) (right : Value) : Option Bool :=
  match left.reading?, right.reading? with
  | some a, some b =>
    match comparison, a, b with
    | .eq, _, _ => some (left.same right)
    | .ne, _, _ => some (!left.same right)
    | _, .number x, .number y => comparison.orders? x y
    | _, _, _ => none
  | _, _ => none

/-- Decides equality and inequality of all values, and the orderings as `decide?` does. -/
def decideStrictly? (left : Value) (comparison : Comparison) (right : Value) : Option Bool :=
  match left.decide? comparison right with
  | some b => some b
  | none =>
    match comparison with
    | .eq => some (left.same right)
    | .ne => some (!left.same right)
    | _ => none

end Value

end GridFilter
