import CrossDialect.Decimal.Shortest

/-!
How a double is spelled out. The digits are the shortest ones; a `Spelling` fixes
the rest: where scientific notation begins, whether a whole number keeps a point,
and which way an exact tie between two decimals goes.
-/

namespace CrossDialect.Decimal

structure Spelling where
  tie : Tie
  -- Whole numbers end in a point and a zero.
  keepsPoint : Bool
  -- Powers of ten from which on, and below which, the notation is scientific.
  scientific : Option (Int × Int)

/-- Digits with trailing zeros moved into the exponent. -/
def Scaled.normalize (d : Scaled) : List Char × Int :=
  let ds := (Nat.repr d.digits).toList
  let core := (ds.reverse.dropWhile (· == '0')).reverse
  if core.isEmpty then (['0'], 0) else (core, d.exponent + (ds.length - core.length : Nat))

def positional (keepsPoint : Bool) (digits : List Char) (exponent : Int) : List Char :=
  let tail := if keepsPoint then ['.', '0'] else []
  if 0 ≤ exponent then digits ++ List.replicate exponent.toNat '0' ++ tail
  else
    let places := (-exponent).toNat
    let padded := List.replicate (places + 1 - digits.length) '0' ++ digits
    padded.take (padded.length - places) ++ '.' :: padded.drop (padded.length - places)

def scientific (digits : List Char) (exponent : Int) : List Char :=
  let power := exponent + (digits.length - 1 : Nat)
  let sign := if power < 0 then '-' else '+'
  let mantissa := match digits with
    | [] => []
    | [d] => [d]
    | d :: ds => d :: '.' :: ds
  mantissa ++ 'e' :: sign :: (Nat.repr power.natAbs).toList

def Spelling.magnitude (f : Spelling) (significand : Nat) (exponent : Int) (leastOfBinade : Bool) :
    List Char :=
  if significand = 0 then positional f.keepsPoint ['0'] 0
  else
    let shortest := (Interval.around significand exponent leastOfBinade).shortest f.tie
    let (digits, exponent) := shortest.normalize
    let power := exponent + (digits.length - 1 : Nat)
    match f.scientific with
    | some (high, low) =>
      if high ≤ power ∨ power < low then Decimal.scientific digits exponent
      else positional f.keepsPoint digits exponent
    | none => positional f.keepsPoint digits exponent

def Spelling.spell (f : Spelling) (x : Float) : String :=
  match Binary.ofFloat x with
  | .notANumber => "NaN"
  | .infinite negative => if negative then "-inf" else "inf"
  | .finite negative significand exponent leastOfBinade =>
    let body := f.magnitude significand exponent leastOfBinade
    String.ofList (if negative then '-' :: body else body)

end CrossDialect.Decimal
