import CrossDialect.PredicateSet

/-!
Inserting one row, with what happens when the row is there already and which
columns come back.
-/

namespace CrossDialect

structure Upsert where
  -- The columns that tell rows apart.
  keys : List String := []
  -- The columns to overwrite; all inserted ones but the keys if none are named.
  update : Option (List String) := none
  -- Keep the row that is there.
  keep : Bool := false

structure Insert where
  target : Target
  table : Option String := none
  values : List (String × Value) := []
  upsert : Option Upsert := none
  returning : List String := []

namespace Insert

def ofTarget (t : Target) : Insert := { target := t }

def into (i : Insert) (table : String) : Insert := { i with table := some table }

def value (i : Insert) (column : String) (v : Value) : Insert :=
  { i with values := i.values ++ [(column, v)] }

def addValues (i : Insert) (entries : List (String × Value)) : Insert :=
  { i with values := i.values ++ entries }

def editUpsert (i : Insert) (edit : Upsert → Upsert) : Insert :=
  { i with upsert := some (edit (i.upsert.getD {})) }

def onConflict (i : Insert) (keys : List String) : Insert :=
  i.editUpsert fun u => { u with keys }

def orUpdate (i : Insert) : Insert :=
  i.editUpsert id

def updateColumns (i : Insert) (columns : List String) : Insert :=
  i.editUpsert fun u => { u with update := some columns }

def doNothing (i : Insert) : Insert :=
  i.editUpsert fun u => { u with keep := true }

def returningColumns (i : Insert) (columns : List String) : Insert :=
  { i with returning := columns }

def columns (i : Insert) : List String := i.values.map (·.1)

def overwritten (i : Insert) (u : Upsert) : List String :=
  match u.update with
  | some columns => columns
  | none => i.columns.filter (!u.keys.contains ·)

def assignments (columns : List String) (form : String → Layout) : Layout :=
  Layout.joined ", " (columns.map fun c => .name c :: .text " = " :: form c)

def duplicateKeyClause (i : Insert) (u : Upsert) : Layout :=
  if u.keep then []
  else
    let chosen := i.overwritten u
    let columns := if chosen.isEmpty then i.columns else chosen
    .text " ON DUPLICATE KEY UPDATE " ::
      assignments columns fun c => [.text "VALUES(", .name c, .text ")"]

def conflictClause (d : Dialect) (i : Insert) (u : Upsert) : Except Error Layout :=
  let key := (Layout.names u.keys).parenthesized
  let columns := i.overwritten u
  if u.keep || columns.isEmpty then
    .ok (if u.keys.isEmpty then [.text " ON CONFLICT DO NOTHING"]
      else .text " ON CONFLICT " :: key ++ [.text " DO NOTHING"])
  else if u.keys.isEmpty then .error (.unsupported d .upsertWithoutKey)
  else
    .ok (.text " ON CONFLICT " :: key ++ .text " DO UPDATE SET " ::
      assignments columns fun c => [.text "excluded.", .name c])

def upsertClause (d : Dialect) (i : Insert) : Except Error Layout :=
  match i.upsert with
  | none => .ok []
  | some u =>
    match d.profile.upsert with
    | .onDuplicateKey => .ok (i.duplicateKeyClause u)
    | .onConflict => i.conflictClause d u
    | .unsupported => .error (.unsupported d .upsert)

/-- The words that open the statement. A dialect that updates on duplicate keys keeps
a row by ignoring the insert. -/
def opening (d : Dialect) (i : Insert) : String :=
  if d.profile.upsert = .onDuplicateKey && (i.upsert.map (·.keep)).getD false then
    "INSERT IGNORE INTO "
  else "INSERT INTO "

def outputClause (d : Dialect) (i : Insert) : Except Error Layout :=
  if i.returning.isEmpty then .ok []
  else
    match d.profile.returning with
    | .output =>
      .ok (.text " OUTPUT " ::
        Layout.joined ", " (i.returning.map fun c => [.text "INSERTED.", .name c]))
    | .returning => .ok []
    | .unsupported => .error (.unsupported d .returning)

def returningClause (d : Dialect) (i : Insert) : Layout :=
  if d.profile.returning = .returning then
    Layout.clause " RETURNING " (Layout.names i.returning)
  else []

def valueList (i : Insert) : Layout :=
  Layout.joined ", " (i.values.map fun (c, v) => [.value (some c) v])

def layout (d : Dialect) (i : Insert) : Except Error Layout :=
  match i.table with
  | none => .error (.missingTable .insert)
  | some table => do
    let output ← i.outputClause d
    let upsert ← i.upsertClause d
    return .text (i.opening d) :: .name table :: .text " " ::
      (Layout.names i.columns).parenthesized ++ output
      ++ .text " VALUES " :: i.valueList.parenthesized ++ upsert ++ i.returningClause d

end Insert

end CrossDialect
