/-!
The shortest decimal of a binary floating point number: of all decimals that
round to the number it has the fewest digits, and of those it is the nearest.
The search runs over decimal grids from coarse to fine in exact arithmetic; the
first grid with a point in the rounding interval holds the answer.
-/

namespace CrossDialect.Decimal

structure Scaled where
  digits : Nat
  exponent : Int
  deriving DecidableEq

/-- Which of two equally near decimals is taken. -/
inductive Tie where
  | up
  | toEven
  deriving DecidableEq

/-- The reals between `low` and `high` round to `middle`; all three count units
of `2 ^ unit`. -/
structure Interval where
  low : Nat
  middle : Nat
  high : Nat
  unit : Int
  closed : Bool

/-- The interval of `significand * 2 ^ exponent`. Below the least significand of a
binade the neighbouring numbers lie half as far away. -/
def Interval.around (significand : Nat) (exponent : Int) (leastOfBinade : Bool) : Interval where
  low := 4 * significand - (if leastOfBinade then 1 else 2)
  middle := 4 * significand
  high := 4 * significand + 2
  unit := exponent - 2
  closed := significand % 2 == 0

/-- Factors that bring counts of `2 ^ unit` and of `10 ^ exponent` to one scale. -/
def Interval.factors (i : Interval) (exponent : Int) : Nat × Nat :=
  (Nat.pow 2 i.unit.toNat * Nat.pow 10 (-exponent).toNat,
    Nat.pow 2 (-i.unit).toNat * Nat.pow 10 exponent.toNat)

def Interval.holds (i : Interval) (exponent : Int) (digits : Nat) : Bool :=
  let (binary, decimal) := i.factors exponent
  if i.closed then i.low * binary ≤ digits * decimal && digits * decimal ≤ i.high * binary
  else i.low * binary < digits * decimal && digits * decimal < i.high * binary

def Interval.onGrid (i : Interval) (tie : Tie) (exponent : Int) : Option Scaled :=
  let (binary, decimal) := i.factors exponent
  let below := i.middle * binary / decimal
  let above := below + 1
  match i.holds exponent below, i.holds exponent above with
  | true, false => some ⟨below, exponent⟩
  | false, true => some ⟨above, exponent⟩
  | false, false => none
  | true, true =>
    let down := i.middle * binary - below * decimal
    let up := above * decimal - i.middle * binary
    if down < up then some ⟨below, exponent⟩
    else if up < down then some ⟨above, exponent⟩
    else match tie with
      | .up => some ⟨above, exponent⟩
      | .toEven => some ⟨if below % 2 = 0 then below else above, exponent⟩

/-- Doubles lie between `10 ^ -324` and `10 ^ 309`, and seventeen digits tell any
two of them apart. -/
def gridExponents : List Int :=
  (List.range 652).map fun k => 310 - Int.ofNat k

def Interval.shortest (i : Interval) (tie : Tie) : Scaled :=
  (gridExponents.findSome? (i.onGrid tie)).getD ⟨0, 0⟩

inductive Binary where
  | notANumber
  | infinite (negative : Bool)
  | finite (negative : Bool) (significand : Nat) (exponent : Int) (leastOfBinade : Bool)

/-- The leading bit of a normal significand, which is not stored. -/
def hiddenBit : Nat := 0x10000000000000

def Binary.ofFloat (x : Float) : Binary :=
  let bits : Nat := x.toBits.toNat
  let negative := bits / hiddenBit / 2048 == 1
  let biased : Nat := bits / hiddenBit % 2048
  let fraction := bits % hiddenBit
  if biased = 2047 then
    if fraction = 0 then .infinite negative else .notANumber
  else if biased = 0 then .finite negative fraction (-1074) false
  else .finite negative (hiddenBit + fraction) ((biased : Int) - 1075) (fraction == 0 && biased > 1)

end CrossDialect.Decimal
