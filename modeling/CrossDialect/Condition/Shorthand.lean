import CrossDialect.Condition.Basic

/-!
Shorthand entries: signs on a key choose the operator, and a plain key takes it
from the kind of value. `%name%` asks for a pattern, `age>=` for a comparison,
`id-` for the negation, `id` with a list for membership, and a text such as
`(1, 5)` for a range.
-/

namespace CrossDialect

open Text

namespace Shorthand

inductive Modifier where
  | plain
  | negated
  | compare (op : Operator)
  | like (leading trailing negates : Bool)
  deriving DecidableEq

/-- Comparison signs at the end of a key, longer ones first. -/
def suffixes : List (String × Operator) :=
  [(">=", .gte), ("<=", .lte), ("!=", .ne), ("<>", .ne), (">", .gt), ("<", .lt)]

def before? (tail s : List Char) : Option (List Char) :=
  (after? tail.reverse s.reverse).map List.reverse

/-- A column name holds no percent sign and has no minus at either end. -/
def checkColumn (column : List Char) : Except ConditionFault (List Char) :=
  if column.isEmpty then .error .noColumnName
  else if '%' ∈ column ∨ column.head? = some '-' ∨ column.getLast? = some '-' then
    .error .unknownModifiers
  else .ok column

/-- Removes percent signs from the ends of a key and says at which. A lone sign
stands at the front. -/
def splitPercents (body : List Char) : Bool × Bool × List Char :=
  let leading := body.head? == some '%'
  let trailing := decide (1 < body.length) && body.getLast? == some '%'
  let column := if leading then body.drop 1 else body
  (leading, trailing, if trailing then column.dropLast else column)

def splitTrimmed (key : List Char) : Except ConditionFault (List Char × Modifier) :=
  match suffixes.findSome? fun (sign, op) => (before? sign.toList key).map (·, op) with
  | some (column, op) => (checkColumn (trimEnd column)).map (·, .compare op)
  | none =>
    let negatedLeading := (after? ['-', '%'] key).isSome
    let negatedTrailing := (before? ['%', '-'] key).isSome
    let body := if negatedLeading then key.drop 1 else key
    let body := if negatedTrailing then body.dropLast else body
    let (leading, trailing, column) := splitPercents body
    if leading || trailing then
      (checkColumn column).map (·, .like leading trailing (negatedLeading || negatedTrailing))
    else
      match before? ['-'] key with
      | some column => (checkColumn column).map (·, .negated)
      | none => (checkColumn key).map (·, .plain)

/-- A key taken apart; a refusal names the key without surrounding blanks. -/
def splitKey (key : String) : Except Error (String × Modifier) :=
  match splitTrimmed (trim key.toList) with
  | .ok (column, modifier) => .ok (String.ofList column, modifier)
  | .error fault => .error (.malformed (trimmed key) fault)

/-- The two bounds of a text such as `(1, 5)`. -/
def range? (value : Value) : Option (List Value) := do
  let s := (← value.text?).toList
  if (trimStart s).head? = some '(' then
    let bounds ← Grammar.wholeList? s
    if bounds.length = 2 then some bounds else none
  else none

/-- The text of a pattern with a percent sign at the ends asked for, never twice. -/
def patternText (leading trailing : Bool) (text : List Char) : List Char :=
  let core := if leading then (after? ['%'] text).getD text else text
  let core := if trailing then (before? ['%'] core).getD core else core
  (if leading then ['%'] else []) ++ core ++ (if trailing then ['%'] else [])

/-- The operand of a pattern. Only text and numbers can be given percent signs;
parameters, columns and SQL text are taken as they are. -/
def pattern (leading trailing : Bool) (value : Value) : Except ConditionFault Value :=
  let wrap (s : String) := Value.text (String.ofList (patternText leading trailing s.toList))
  match value with
  | .text s => .ok (wrap s)
  | .int n => .ok (wrap (Value.intText n.toInt))
  | .float x => .ok (wrap (Value.floatText x))
  | .param _ | .raw _ | .column _ => .ok value
  | other => .error (.likeNeedsText other)

structure Choice where
  missing : Operator
  member : Operator
  within : Operator
  same : Operator

def Choice.positive : Choice := ⟨.isNull, .inList, .between, .eq⟩

def Choice.negative : Choice := ⟨.isNotNull, .notInList, .notBetween, .ne⟩

def Choice.classify (c : Choice) (value : Value) : Operator × List Value :=
  match value with
  | .null => (c.missing, [])
  | .list items => (c.member, items)
  | v =>
    match range? v with
    | some bounds => (c.within, bounds)
    | none => (c.same, [v])

def Modifier.classify (value : Value) : Modifier → Except ConditionFault (Operator × List Value)
  | .compare op =>
    match value with
    | .null | .list _ => .error (.needsSingleValue op)
    | v => .ok (op, [v])
  | .like leading trailing negates =>
    (pattern leading trailing value).map fun v =>
      (if negates then .notLike else .like, [v])
  | .negated => .ok (Choice.negative.classify value)
  | .plain => .ok (Choice.positive.classify value)

/-- Reads an entry; a value that does not fit is refused with the key as given. -/
def parse (key : String) (value : Value) : Except Error Condition := do
  let (column, modifier) ← splitKey key
  let (op, operands) ← (modifier.classify value).mapError (.malformed key)
  return { column, op, operands }

end Shorthand

def Predicate.shorthand (key : String) (value : Value) : Except Error Predicate :=
  (Shorthand.parse key value).bind Condition.toPredicate

end CrossDialect
