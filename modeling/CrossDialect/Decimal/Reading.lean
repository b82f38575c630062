import CrossDialect.Text.Word

/-!
Decimal text read as a binary number: the nearest one, a tie to the even
significand.
-/

namespace CrossDialect.Decimal

open Text

/-- Numbers at or above `10 ^ 400` and below `10 ^ -400` are outside every format,
so their exact value is not worked out. -/
def outermost : Int := 400

/-- The magnitude `digits * 10 ^ exponent`, brought into reach of the formats. -/
def withinReach (digits : Nat) (exponent : Int) : Nat × Int :=
  let power := exponent + (Nat.repr digits).length
  if digits = 0 ∨ power < -outermost then (0, 0)
  else if outermost < power then (1, outermost)
  else (digits, exponent)

def toFloat (negative : Bool) (digits : Nat) (exponent : Int) : Float :=
  let (digits, exponent) := withinReach digits exponent
  let x := Float.ofScientific digits (exponent < 0) exponent.natAbs
  if negative then -x else x

def toFloat32 (negative : Bool) (digits : Nat) (exponent : Int) : Float32 :=
  let (digits, exponent) := withinReach digits exponent
  let x := Float32.ofScientific digits (exponent < 0) exponent.natAbs
  if negative then -x else x

inductive Numeral where
  | notANumber
  | infinite (negative : Bool)
  | finite (negative : Bool) (digits : Nat) (exponent : Int)

def Numeral.toFloat : Numeral → Float
  | .notANumber => 0.0 / 0.0
  | .infinite negative => if negative then -(1.0 / 0.0) else 1.0 / 0.0
  | .finite negative digits exponent => Decimal.toFloat negative digits exponent

def Numeral.toFloat32 : Numeral → Float32
  | .notANumber => 0.0 / 0.0
  | .infinite negative => if negative then -(1.0 / 0.0) else 1.0 / 0.0
  | .finite negative digits exponent => Decimal.toFloat32 negative digits exponent

def splitSign : List Char → Bool × List Char
  | '-' :: s => (true, s)
  | '+' :: s => (false, s)
  | s => (false, s)

def signed? (s : List Char) : Option Int :=
  let (negative, ds) := splitSign s
  if isNumeral ds then
    some (if negative then -(digitsValue ds : Int) else digitsValue ds)
  else none

/-- Reads digits with at most one point and an exponent, or the name of a special
number in any case. At least one digit stands before the exponent. -/
def Numeral.read? (s : List Char) : Option Numeral :=
  let (negative, body) := splitSign s
  if lower body = "nan".toList then some .notANumber
  else if lower body = "inf".toList ∨ lower body = "infinity".toList then some (.infinite negative)
  else
    let whole := body.takeWhile Char.isDigit
    let afterWhole := body.dropWhile Char.isDigit
    let (fraction, rest) := match afterWhole with
      | '.' :: r => (r.takeWhile Char.isDigit, r.dropWhile Char.isDigit)
      | r => ([], r)
    if whole.isEmpty && fraction.isEmpty then none
    else
      let finite (power : Int) :=
        some (Numeral.finite negative (digitsValue (whole ++ fraction)) (power - fraction.length))
      match rest with
      | [] => finite 0
      | 'e' :: r | 'E' :: r => (signed? r).bind finite
      | _ => none

end CrossDialect.Decimal
