import CrossDialect.Statement.Table
import CrossDialect.Statement.Window
import CrossDialect.Statement.Order

/-!
Queries. The body of a query, from its table to its HAVING clause, is laid out
once; a window puts columns before it and an order behind it, or wraps it where
rows are picked by number. A query in a table's place is laid out for the dialect
of the statement around it.
-/

namespace CrossDialect

structure Select where
  target : Target
  distinct : Bool := false
  columns : List String := []
  source : Option (TableRef Select) := none
  joins : List (Join Select) := []
  filter : PredicateSet := { target }
  groupBy : List String := []
  having : PredicateSet := { target }
  orderBy : List OrderItem := []
  limit : Option UInt64 := none
  offset : Option UInt64 := none

namespace Select

def ofTarget (t : Target) : Select := { target := t }

instance : Inhabited Select := ⟨ofTarget (.ofDialect .mysql)⟩

/-- Replaces the columns. None at all stands for all columns. -/
def withColumns (s : Select) (columns : List String) : Select := { s with columns }

def addColumn (s : Select) (column : String) : Select :=
  { s with columns := s.columns ++ [column] }

def unique (s : Select) : Select := { s with distinct := true }

def readFrom (s : Select) (table : TableRef Select) : Select := { s with source := some table }

def fromAliasMap (s : Select) (entries : List (String × String)) : Edited Select :=
  match TableRef.ofAliasMap entries with
  | .ok table => { state := s.readFrom table }
  | .error e => { state := s, refusal := some e }

def fromSubquery (s inner : Select) (aliasName : String) : Select :=
  s.readFrom (.subquery inner aliasName)

def joinConditions (s : Select) : PredicateSet := { target := s.target }

def joinWith (s : Select) (kind : JoinKind) (table : TableRef Select) (on : PredicateSet) :
    Select :=
  { s with joins := s.joins ++ [{ kind, table, on }] }

/-- Adds a join with one condition. The join stays when its condition is refused. -/
def join (s : Select) (kind : JoinKind) (table : TableRef Select) (on : Criterion) :
    Edited Select :=
  (s.joinConditions.add on).map (s.joinWith kind table)

def addGroups (s : Select) (columns : List String) : Select :=
  { s with groupBy := s.groupBy ++ columns }

def addHaving (s : Select) (c : Criterion) : Edited Select :=
  (s.having.add c).map fun having => { s with having }

def order (s : Select) (clause : String) : Select :=
  { s with orderBy := s.orderBy ++ OrderItem.ofText clause }

def orderColumn (s : Select) (column : String) (direction : Direction) : Select :=
  { s with orderBy := s.orderBy ++ [⟨column, some direction⟩] }

def withLimit (s : Select) (n : UInt64) : Select := { s with limit := some n }

def withOffset (s : Select) (n : UInt64) : Select := { s with offset := some n }

/-- Shows one page. Pages and their sizes count from one. -/
def paginate (s : Select) (page perPage : UInt64) : Select :=
  let size := max perPage 1
  let skipped := (max page 1).toNat - 1
  { s with
    limit := some size
    offset := some (UInt64.ofNat (Window.saturated (skipped * size.toNat))) }

def rowNumberName : String := "RowNumber"

def columnList (s : Select) : Layout :=
  if s.columns.isEmpty then [.text "*"] else Layout.names s.columns

def orderList (s : Select) : Layout := OrderItem.layouts s.orderBy

def orderClause (s : Select) : Layout := Layout.clause " ORDER BY " s.orderList

def conditions (s : Select) : Except Error Layout := do
  let filter ← s.filter.layout
  let having ← s.having.layout
  return Layout.clause " WHERE " filter ++ Layout.clause " GROUP BY " (Layout.names s.groupBy)
    ++ Layout.clause " HAVING " having

def core (s : Select) (window : Layout) (columns extra body : Layout) : Layout :=
  .text "SELECT " :: (if s.distinct then [.text "DISTINCT "] else [])
    ++ window ++ columns ++ extra ++ body

def rowNumbering (s : Select) : Layout :=
  .text "ROW_NUMBER() OVER (ORDER BY " :: s.orderList ++ [.text ") AS ", .name rowNumberName]

def rowCondition (first : Int64) : Option Int64 → Predicate
  | some last => .between rowNumberName (.int first) (.int last)
  | none => .gte rowNumberName (.int first)

/-- The query with its rows numbered. Equal rows are dropped before they get numbers. -/
def numberedRows (s : Select) (body : Layout) : Layout :=
  if s.distinct then
    .text "SELECT *, " :: s.rowNumbering ++ .text " FROM " ::
      (s.core [] s.columnList [] body).parenthesized ++ [.text " AS ", .name "distinct_rows"]
  else s.core [] s.columnList (.text ", " :: s.rowNumbering) body

def assemble (d : Dialect) (s : Select) (window : Window) (body : Layout) : Layout :=
  match window with
  | .numbered first last =>
    .text "SELECT * FROM " :: (s.numberedRows body).parenthesized
      ++ [.text " AS ", .name "paged", .text " WHERE "] ++ (rowCondition first last).layout
      ++ [.text " ORDER BY ", .name rowNumberName]
  | window =>
    s.core window.head s.columnList [] body ++ s.orderClause ++ window.tail d

def window (d : Dialect) (s : Select) : Except Error Window :=
  Window.choose d s.limit s.offset (!s.orderBy.isEmpty)

mutual

def layout (d : Dialect) : Select → Except Error Layout
  | s@{ source, joins, .. } => do
    let window ← s.window d
    let source ← sourceLayout d source
    let joins ← joinsLayout d joins
    let conditions ← s.conditions
    return s.assemble d window (source ++ joins ++ conditions)

def sourceLayout (d : Dialect) : Option (TableRef Select) → Except Error Layout
  | none => .ok []
  | some table => do return .text " FROM " :: (← tableLayout d table)

def tableLayout (d : Dialect) : TableRef Select → Except Error Layout
  | .named name => .ok [.name name]
  | .aliased table aliasName => .ok [.name table, .text " AS ", .name aliasName]
  | .subquery inner aliasName => do
    return (← inner.layout d).parenthesized ++ [.text " AS ", .name aliasName]

def joinsLayout (d : Dialect) : List (Join Select) → Except Error Layout
  | [] => .ok []
  | j :: js => do
    let first ← joinLayout d j
    return first ++ (← joinsLayout d js)

def joinLayout (d : Dialect) : Join Select → Except Error Layout
  | { kind, table, on } => do
    let table ← tableLayout d table
    let on ← on.layout
    return .text (" " ++ kind.sql ++ " ") :: table ++ Layout.clause " ON " on

end

def body (d : Dialect) (s : Select) : Except Error Layout := do
  let source ← sourceLayout d s.source
  let joins ← joinsLayout d s.joins
  let conditions ← s.conditions
  return source ++ joins ++ conditions

/-- Rows that are unique or grouped are counted from outside. -/
def countsOutside (s : Select) : Bool :=
  s.distinct || !s.groupBy.isEmpty || !s.having.isEmpty

def countLayout (d : Dialect) (s : Select) : Except Error Layout := do
  let body ← s.body d
  if s.countsOutside then
    let columns := if s.distinct then s.columnList else [.text "1"]
    return .text "SELECT COUNT(*) FROM " :: (s.core [] columns [] body).parenthesized
      ++ [.text " AS ", .name "count_subquery"]
  else return .text "SELECT COUNT(*)" :: body

def buildCount (s : Select) : Except Error Built :=
  (s.countLayout s.target.dialect).map (Layout.build s.target)

end Select

end CrossDialect
