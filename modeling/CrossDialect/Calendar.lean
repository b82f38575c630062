import CrossDialect.Value.Basic

/-!
Dates and times as values. Years beyond four digits carry a sign, fractions of a
second have the fewest of three, six or nine digits, and a leap second is the
sixtieth.
-/

namespace CrossDialect

def paddedText (width n : Nat) : String :=
  let digits := Nat.repr n
  String.ofList (List.replicate (width - digits.length) '0') ++ digits

structure Date where
  year : Int
  month : Nat
  day : Nat

structure TimeOfDay where
  hour : Nat
  minute : Nat
  second : Nat
  -- A thousand million and more stand for a leap second.
  nanosecond : Nat

namespace Date

def yearText (year : Int) : String :=
  if 0 ≤ year ∧ year ≤ 9999 then paddedText 4 year.toNat
  else (if year < 0 then "-" else "+") ++ paddedText 4 year.natAbs

def text (d : Date) : String :=
  yearText d.year ++ "-" ++ paddedText 2 d.month ++ "-" ++ paddedText 2 d.day

end Date

namespace TimeOfDay

def nanosPerSecond : Nat := 1000000000

def fractionText (nanos : Nat) : String :=
  if nanos = 0 then ""
  else if nanos % 1000000 = 0 then "." ++ paddedText 3 (nanos / 1000000)
  else if nanos % 1000 = 0 then "." ++ paddedText 6 (nanos / 1000)
  else "." ++ paddedText 9 nanos

def text (t : TimeOfDay) : String :=
  paddedText 2 t.hour ++ ":" ++ paddedText 2 t.minute ++ ":"
    ++ paddedText 2 (t.second + t.nanosecond / nanosPerSecond)
    ++ fractionText (t.nanosecond % nanosPerSecond)

end TimeOfDay

/-- An offset from universal time in seconds, east positive, to the nearest minute. -/
def offsetText (seconds : Int) : String :=
  let minutes := (seconds.natAbs + 30) / 60
  (if seconds < 0 then "-" else "+") ++ paddedText 2 (minutes / 60) ++ ":"
    ++ paddedText 2 (minutes % 60)

namespace Value

def ofDate (d : Date) : Value := .text d.text

def ofTime (t : TimeOfDay) : Value := .text t.text

def ofDateTime (d : Date) (t : TimeOfDay) : Value := .text (d.text ++ " " ++ t.text)

def ofZoned (d : Date) (t : TimeOfDay) (offset : Int) : Value :=
  .text (d.text ++ " " ++ t.text ++ offsetText offset)

end Value

end CrossDialect
