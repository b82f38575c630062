/-!
Comparison operators with the number of operands each of them takes, and the two
conjunctions that join conditions.
-/

namespace CrossDialect

inductive Operator where
  | eq
  | ne
  | gt
  | gte
  | lt
  | lte
  | like
  | notLike
  | between
  | notBetween
  | inList
  | notInList
  | isNull
  | isNotNull
  deriving DecidableEq

namespace Operator

def all : List Operator :=
  [.eq, .ne, .gt, .gte, .lt, .lte, .like, .notLike, .between, .notBetween, .inList, .notInList,
   .isNull, .isNotNull]

def sql : Operator → String
  | .eq => "="
  | .ne => "!="
  | .gt => ">"
  | .gte => ">="
  | .lt => "<"
  | .lte => "<="
  | .like => "LIKE"
  | .notLike => "NOT LIKE"
  | .between => "BETWEEN"
  | .notBetween => "NOT BETWEEN"
  | .inList => "IN"
  | .notInList => "NOT IN"
  | .isNull => "IS NULL"
  | .isNotNull => "IS NOT NULL"

inductive Shape where
  | nothing
  | one
  -- A lower and an upper bound.
  | bounds
  -- A list that is not empty.
  | list
  deriving DecidableEq

def shape : Operator → Shape
  | .isNull | .isNotNull => .nothing
  | .between | .notBetween => .bounds
  | .inList | .notInList => .list
  | _ => .one

def Shape.accepts : Shape → Nat → Bool
  | .nothing, count => count == 0
  | .one, count => count == 1
  | .bounds, count => count == 2
  | .list, count => 1 ≤ count

def Shape.expectation : Shape → String
  | .nothing => "0"
  | .one => "1"
  | .bounds => "2"
  | .list => "at least 1"

def accepts (op : Operator) (count : Nat) : Bool :=
  op.shape.accepts count

end Operator

/-- How an element joins the element before it. -/
inductive Conjunction where
  | and
  | or
  deriving DecidableEq

def Conjunction.sql : Conjunction → String
  | .and => "AND"
  | .or => "OR"

end CrossDialect
