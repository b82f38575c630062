import CrossDialect.PredicateSet

/-!
Updating rows: assignments in the order they were made, and the conditions that
choose the rows.
-/

namespace CrossDialect

structure Update where
  target : Target
  table : Option String := none
  assignments : List (String × Value) := []
  filter : PredicateSet := { target }

namespace Update

def ofTarget (t : Target) : Update := { target := t }

def on (u : Update) (table : String) : Update := { u with table := some table }

def set (u : Update) (column : String) (v : Value) : Update :=
  { u with assignments := u.assignments ++ [(column, v)] }

def setMany (u : Update) (entries : List (String × Value)) : Update :=
  { u with assignments := u.assignments ++ entries }

def setRaw (u : Update) (column sql : String) : Update :=
  u.set column (.raw sql)

def assignmentList (u : Update) : Layout :=
  Layout.joined ", " (u.assignments.map fun (c, v) =>
    [.name c, .text " = ", .value (some c) v])

def layout (u : Update) : Except Error Layout :=
  match u.table with
  | none => .error (.missingTable .update)
  | some table => do
    let filter ← u.filter.layout
    return .text "UPDATE " :: .name table :: .text " SET" :: Layout.clause " " u.assignmentList
      ++ Layout.clause " WHERE " filter

end Update

end CrossDialect
