import CrossDialect.Decimal.Spelling
import CrossDialect.Decimal.Reading

/-!
JSON trees that keep numbers and strings as they were written, since the readers
of single fields differ in what they take: a length refuses `1.0` and `-0`, a
skipped field may hold half of a surrogate pair.
-/

namespace CrossDialect.Json

structure Number where
  negative : Bool
  whole : List Char
  fraction : List Char
  exponent : Option Int
  deriving DecidableEq

/-- The text of a string. It is not `sound` when an escape named a surrogate
without its partner; a replacement character then stands in its place. -/
structure Quoted where
  text : String
  sound : Bool := true
  deriving DecidableEq

end CrossDialect.Json

inductive CrossDialect.Json where
  | null
  | bool (b : Bool)
  | number (n : Json.Number)
  | string (s : Json.Quoted)
  | array (items : List Json)
  | object (fields : List (Json.Quoted × Json))
  deriving Inhabited

namespace CrossDialect.Json

open Text

/-- Numbers with neither point nor exponent. Zero with a sign is not among them:
its sign would be lost. -/
def Number.integer? (n : Number) : Option Int :=
  match n.fraction, n.exponent with
  | [], none =>
    let magnitude := digitsValue n.whole
    if n.negative then (if magnitude = 0 then none else some (-(magnitude : Int)))
    else some magnitude
  | _, _ => none

def Number.ofInt (i : Int) : Number where
  negative := i < 0
  whole := (Nat.repr i.natAbs).toList
  fraction := []
  exponent := none

/-- Adds digits to a significand as long as it stays within 64 bits, and counts
those that are left out. -/
def keepDigits (significand : Nat) : List Char → Nat × Nat
  | [] => (significand, 0)
  | d :: ds =>
    let next := 10 * significand + digitsValue [d]
    if next < UInt64.size then keepDigits next ds else (significand, ds.length + 1)

def powerOfTen (n : Nat) : Float :=
  Float.ofScientific 1 false n

/-- Scales by a power of ten with one rounding where a double holds that power. -/
def scale (x : Float) (exponent : Int) : Float :=
  if 0 ≤ exponent then
    if x == 0 then x
    else if exponent ≤ 308 then x * powerOfTen exponent.toNat else x / 0
  else if -308 ≤ exponent then x / powerOfTen (-exponent).toNat
  else if -616 ≤ exponent then x / powerOfTen 308 / powerOfTen (-exponent - 308).toNat
  else 0

/-- The double of a number: its leading digits within 64 bits are rounded, then
scaled. -/
def Number.toFloat (n : Number) : Float :=
  let (significand, dropped) := keepDigits 0 n.whole
  let (significand, cut) := keepDigits significand n.fraction
  let exponent := (dropped : Int) - (n.fraction.length - cut : Nat) + n.exponent.getD 0
  let x := scale significand.toUInt64.toFloat exponent
  if n.negative then -x else x

def ofString (s : String) : Json := .string { text := s }

def ofInt (i : Int) : Json := .number (.ofInt i)

def ofNat (n : Nat) : Json := ofInt n

def ofFields (fields : List (String × Json)) : Json :=
  .object (fields.map fun (k, v) => ({ text := k }, v))

/-- The value of a field; of equal keys the last one counts. -/
def field? (key : String) : Json → Option Json
  | .object fields => (fields.reverse.find? fun (k, _) => k.text == key).map (·.2)
  | _ => none

def text? : Json → Option String
  | .string s => if s.sound then some s.text else none
  | _ => none

def items? : Json → Option (List Json)
  | .array items => some items
  | _ => none

def integer? : Json → Option Int
  | .number n => n.integer?
  | _ => none

def bool? : Json → Option Bool
  | .bool b => some b
  | _ => none

end CrossDialect.Json
