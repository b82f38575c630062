import CrossDialect.Value.Basic
import CrossDialect.Json.Printer

/-!
Values made from JSON. Arrays become lists, whole numbers within 64 bits with a
sign become integers and other numbers floats; an object is kept as its canonical
text.
-/

namespace CrossDialect.Value

def ofNumber (n : Json.Number) : Value :=
  match n.integer? with
  | some i =>
    if Int64.minValue.toInt ≤ i ∧ i ≤ Int64.maxValue.toInt then .int (Int64.ofInt i)
    else .float n.toFloat
  | none => .float n.toFloat

mutual

def ofJson : Json → Value
  | .null => .null
  | .bool b => .bool b
  | .number n => ofNumber n
  | .string s => .text s.text
  | .array items => .list (ofJsonItems items)
  | .object fields => .text (Json.object fields).canonical.compact

def ofJsonItems : List Json → List Value
  | [] => []
  | j :: js => ofJson j :: ofJsonItems js

end

end CrossDialect.Value
