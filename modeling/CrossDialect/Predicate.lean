import CrossDialect.Layout

/-!
Single conditions: a column, an operator and its operands. The number of operands
is checked when a predicate is made.
-/

namespace CrossDialect

structure Predicate where
  column : String
  op : Operator
  operands : List Value
  -- How the predicate joins the one before it.
  conjunction : Conjunction := .and

namespace Predicate

/-- One list in place of the operands of `IN` stands for its items. -/
def spread (op : Operator) (operands : List Value) : List Value :=
  match op.shape, operands with
  | .list, [.list items] => items
  | _, _ => operands

def make (column : String) (op : Operator) (operands : List Value) : Except Error Predicate :=
  let operands := spread op operands
  if op.accepts operands.length then .ok { column, op, operands }
  else .error (.arity op operands.length)

def single (op : Operator) (column : String) (value : Value) : Predicate :=
  { column, op, operands := [value] }

def eq := single .eq

def ne := single .ne

def gt := single .gt

def gte := single .gte

def lt := single .lt

def lte := single .lte

def like := single .like

def notLike := single .notLike

def between (column : String) (low high : Value) : Predicate :=
  { column, op := .between, operands := [low, high] }

def notBetween (column : String) (low high : Value) : Predicate :=
  { column, op := .notBetween, operands := [low, high] }

def inList (column : String) (values : List Value) : Except Error Predicate :=
  make column .inList values

def notInList (column : String) (values : List Value) : Except Error Predicate :=
  make column .notInList values

def isNull (column : String) : Predicate :=
  { column, op := .isNull, operands := [] }

def isNotNull (column : String) : Predicate :=
  { column, op := .isNotNull, operands := [] }

def withConjunction (p : Predicate) (c : Conjunction) : Predicate :=
  { p with conjunction := c }

/-- An operand in its place. A place without an operand stays empty; predicates that
were checked have one for every place. -/
def operand (p : Predicate) (place : Nat) : Layout :=
  (p.operands[place]?.map (Piece.value (some p.column))).toList

def right (p : Predicate) : Layout :=
  match p.op.shape with
  | .nothing => []
  | .one => .text " " :: p.operand 0
  | .bounds => .text " " :: p.operand 0 ++ .text " AND " :: p.operand 1
  | .list =>
    .text " " ::
      (Layout.joined ", " (p.operands.map fun v => [.value (some p.column) v])).parenthesized

def layout (p : Predicate) : Layout :=
  Layout.parenthesized (.name p.column :: .text (" " ++ p.op.sql) :: p.right)

def render (t : Target) (p : Predicate) : String :=
  (p.layout.build t).sql

end Predicate

end CrossDialect
