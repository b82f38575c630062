import CrossDialect.Condition.Grammar
import CrossDialect.Predicate
import CrossDialect.Text.Blank

/-!
Conditions read from text such as `age >= 18`. A refusal says which of column,
operator, operand and end was not found, the first of them that fails.
-/

namespace CrossDialect

open Text

/-- A condition as it was read, its operands not yet counted. -/
structure Condition where
  column : String
  op : Operator
  operands : List Value

namespace Condition

def operandsOf (op : Operator) : Grammar.Reader (List Value) × ConditionFault :=
  match op.shape with
  | .nothing => (fun s => some ([], s), .noValue op)
  | .list => (fun s => Grammar.valueList (skipGap s), .noList op)
  | .bounds => (fun s => Grammar.bounds (skipGap s), .noBounds op)
  | .one => (fun s => (Grammar.scalar (skipGap s)).map fun (v, rest) => ([v], rest), .noValue op)

def parseChars (s : List Char) : Except ConditionFault Condition :=
  match Grammar.column (skipGap s) with
  | none => .error .noColumn
  | some (column, rest) =>
    let rest := skipGap rest
    match Grammar.operator rest with
    | none => .error (.unknownOperator (String.ofList (trim rest)))
    | some (op, rest) =>
      let (reader, fault) := operandsOf op
      match reader rest with
      | none => .error fault
      | some (operands, rest) =>
        let rest := trim rest
        if rest.isEmpty then .ok { column := String.ofList column, op, operands }
        else .error (.trailing (String.ofList rest))

def parse (text : String) : Except Error Condition :=
  (parseChars text.toList).mapError (.malformed text)

def toPredicate (c : Condition) : Except Error Predicate :=
  Predicate.make c.column c.op c.operands

end Condition

def Predicate.parse (text : String) : Except Error Predicate :=
  (Condition.parse text).bind Condition.toPredicate

end CrossDialect
