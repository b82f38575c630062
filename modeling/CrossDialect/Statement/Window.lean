import CrossDialect.Predicate

/-!
The window of rows that a query shows. A dialect either limits and skips rows in
words of its own or numbers the rows in their order and picks a range of numbers;
the second way needs an order.
-/

namespace CrossDialect

inductive Window where
  | all
  | limit (rows : UInt64)
  | limitOffset (rows skipped : UInt64)
  | offset (skipped : UInt64)
  | top (rows : UInt64)
  -- Rows numbered from one, both bounds included.
  | numbered (first : Int64) (last : Option Int64)
  deriving DecidableEq

namespace Window

/-- The row with this number, counted in 64 bits with a sign. Larger numbers become
the largest one. -/
def rowNumber (n : Nat) : Int64 :=
  Int64.ofNat (min n (UInt64.size / 2 - 1))

/-- Sums of 64 bit words without a sign stop at the largest word. -/
def saturated (n : Nat) : Nat :=
  min n (UInt64.size - 1)

/-- The window for a limit and an offset. An offset of zero skips nothing. -/
def choose (d : Dialect) (limit offset : Option UInt64) (ordered : Bool) : Except Error Window :=
  match d.profile.paging, limit, offset.filter (0 < ·) with
  | .limitOffset, some rows, some skipped => .ok (.limitOffset rows skipped)
  | .limitOffset, some rows, none => .ok (.limit rows)
  | .limitOffset, none, some skipped => .ok (.offset skipped)
  | .limitOffset, none, none => .ok .all
  | .rowNumber, some rows, none => .ok (.top rows)
  | .rowNumber, none, none => .ok .all
  | .rowNumber, limit, some skipped =>
    if ordered then
      .ok (.numbered (rowNumber (saturated (skipped.toNat + 1)))
        (limit.map fun rows => rowNumber (saturated (skipped.toNat + rows.toNat))))
    else .error (.unsupported d .offsetWithoutOrder)

def count (n : UInt64) : String := Nat.repr n.toNat

def tail (d : Dialect) : Window → Layout
  | .limit rows => [.text (" LIMIT " ++ count rows)]
  | .limitOffset rows skipped => [.text (" LIMIT " ++ count rows ++ " OFFSET " ++ count skipped)]
  | .offset skipped =>
    match d.profile.unboundedLimit with
    | some unbounded => [.text (" LIMIT " ++ unbounded ++ " OFFSET " ++ count skipped)]
    | none => [.text (" OFFSET " ++ count skipped)]
  | _ => []

def head : Window → Layout
  | .top rows => [.text ("TOP " ++ count rows ++ " ")]
  | _ => []

end Window

end CrossDialect
