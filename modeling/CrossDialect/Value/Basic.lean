import CrossDialect.Decimal.Spelling

/-!
Operands of a statement. Most values are written into the SQL text; a parameter
is kept back and a placeholder stands for it.
-/

namespace CrossDialect

inductive Value where
  | null
  | bool (b : Bool)
  | int (n : Int64)
  | float (x : Float)
  | text (s : String)
  | list (items : List Value)
  -- A reference to a column, written as a quoted identifier.
  | column (name : String)
  -- SQL text, written as it is.
  | raw (sql : String)
  -- A value kept back for binding.
  | param (inner : Value)
  deriving Inhabited

namespace Value

/-- Floats are written without an exponent, and of two equally near shortest
decimals the upper one is taken. -/
def spelling : Decimal.Spelling where
  tie := .up
  keepsPoint := false
  scientific := none

def floatText (x : Float) : String :=
  spelling.spell x

def intText (i : Int) : String :=
  match i with
  | .ofNat n => Nat.repr n
  | .negSucc n => "-" ++ Nat.repr (n + 1)

mutual

def display : Value → String
  | .null => "NULL"
  | .bool b => if b then "true" else "false"
  | .int n => intText n.toInt
  | .float x => floatText x
  | .text s | .column s | .raw s => s
  | .list items => "(" ++ ", ".intercalate (displayAll items) ++ ")"
  | .param inner => display inner

def displayAll : List Value → List String
  | [] => []
  | v :: vs => display v :: displayAll vs

end

def isNull : Value → Bool
  | .null => true
  | _ => false

def text? : Value → Option String
  | .text s => some s
  | _ => none

def items? : Value → Option (List Value)
  | .list items => some items
  | _ => none

end Value

end CrossDialect
