import CrossDialect.Transaction.Connection
import CrossDialect.Placeholder
import CrossDialect.Config

/-!
Nested transactions on one connection. The outermost level is a transaction of the
database and every level inside it a savepoint. Names of savepoints are counted up
and never used twice.
-/

namespace CrossDialect

structure Manager where
  -- What the names of savepoints begin with.
  stem : String
  depth : Nat := 0
  -- The savepoints that are open, the innermost last.
  savepoints : List String := []
  -- How many names were given out. It has no bound here; one of 64 bits overflows after
  -- 18446744073709551615 names.
  sequence : Nat := 0
  deriving DecidableEq

namespace Manager

/-- A manager at rest. All but letters and digits of the stem becomes underscores. -/
def withStem (stem : String) : Manager := { stem := Placeholder.nameFor stem }

def default : Manager := withStem ({} : Config).savepointStem

def isActive (m : Manager) : Bool := 0 < m.depth

def savepointName (m : Manager) (number : Nat) : String :=
  m.stem ++ "_" ++ Nat.repr number

variable {σ : Type}

/-- Opens a level. The depth grows only if the database agrees, but a name once tried
is not tried again. -/
def enter (m : Manager) (c : Channel σ) : Except Error Unit × Manager × Channel σ :=
  if m.depth = 0 then
    match c.control .begin with
    | (.ok _, c) => (.ok (), { m with depth := 1 }, c.report .began)
    | (.error e, c) => (.error e, m, c)
  else
    let number := m.sequence + 1
    let name := m.savepointName number
    let m := { m with sequence := number }
    match c.control (.savepoint name) with
    | (.ok _, c) =>
      let depth := m.depth + 1
      (.ok (), { m with depth, savepoints := m.savepoints ++ [name] },
        c.report (.savepointSet depth name))
    | (.error e, c) => (.error e, m, c)

/-- Leaves the innermost level. The level is gone even if the database refuses. -/
def leave (m : Manager) (outcome : Outcome) (c : Channel σ) :
    Except Error Unit × Manager × Channel σ :=
  match m.depth with
  | 0 => (.error .noTransaction, m, c)
  | 1 =>
    let m := { m with depth := 0, savepoints := [] }
    let c := c.report (.ended outcome)
    let (result, c) := match outcome with
      | .keep => c.control .commit
      | .discard => c.control .rollback
    (result, m, c)
  | depth + 2 =>
    match m.savepoints.getLast? with
    | none => (.error (.noSavepoint (depth + 2)), m, c)
    | some name =>
      let m := { m with depth := depth + 1, savepoints := m.savepoints.dropLast }
      let c := c.report (.savepointLeft (depth + 1) name outcome)
      let (result, c) := match outcome with
        | .keep => c.control (.release name)
        | .discard => c.control (.rollbackTo name)
      (result, m, c)

end Manager

end CrossDialect
