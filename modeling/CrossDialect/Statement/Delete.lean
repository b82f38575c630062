import CrossDialect.PredicateSet

/-!
Deleting the rows that conditions choose.
-/

namespace CrossDialect

structure Delete where
  target : Target
  table : Option String := none
  filter : PredicateSet := { target }

namespace Delete

def ofTarget (t : Target) : Delete := { target := t }

def on (x : Delete) (table : String) : Delete := { x with table := some table }

def layout (x : Delete) : Except Error Layout :=
  match x.table with
  | none => .error (.missingTable .delete)
  | some table => do
    let filter ← x.filter.layout
    return .text "DELETE FROM " :: .name table :: Layout.clause " WHERE " filter

end Delete

end CrossDialect
